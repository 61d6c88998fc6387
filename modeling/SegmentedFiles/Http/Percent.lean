import SegmentedFiles.Hex

/-! Percent-encoding: a byte written as a percent sign and two hexadecimal digits. -/

namespace SegmentedFiles.Percent

/-- Replace each escape by its byte. A percent sign that begins no escape stands for itself. -/
def decode : List UInt8 → List UInt8
  | 0x25 :: a :: b :: rest =>
    match Hex.value? (Char.ofNat a.toNat), Hex.value? (Char.ofNat b.toNat) with
    | some high, some low => UInt8.ofNat (16 * high + low) :: decode rest
    | _, _ => 0x25 :: decode (a :: b :: rest)
  | b :: rest => b :: decode rest
  | [] => []

def escape (b : UInt8) : List Char :=
  '%' :: (Hex.ofByte b).map Char.toUpper

/-- The bytes of a text with those escaped that are `unsafe`, and those that are not ASCII. -/
def encode (isUnsafe : UInt8 → Bool) (text : String) : String :=
  String.ofList <| text.toUTF8.data.toList.flatMap fun b =>
    if 0x80 ≤ b || isUnsafe b then escape b else [Char.ofNat b.toNat]

def decodeText? (text : String) : Option String :=
  String.fromUTF8? ⟨(decode text.toUTF8.data.toList).toArray⟩

end SegmentedFiles.Percent
