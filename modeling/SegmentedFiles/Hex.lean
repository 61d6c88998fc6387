/-! Lowercase hexadecimal text of bytes, two digits a byte. -/

namespace SegmentedFiles.Hex

def digit (n : Nat) : Char := Nat.digitChar n

/-- The value of a digit, in either case. -/
def value? (c : Char) : Option Nat :=
  if '0' ≤ c ∧ c ≤ '9' then some (c.toNat - '0'.toNat)
  else if 'a' ≤ c ∧ c ≤ 'f' then some (c.toNat - 'a'.toNat + 10)
  else if 'A' ≤ c ∧ c ≤ 'F' then some (c.toNat - 'A'.toNat + 10)
  else none

def ofByte (byte : UInt8) : List Char := [digit (byte.toNat / 16), digit (byte.toNat % 16)]

def encode (bytes : ByteArray) : String := String.ofList (bytes.data.toList.flatMap ofByte)

/-- The bytes that a list of digits stands for; an odd number of digits stands for none. -/
def decodeDigits : List Char → Option (List UInt8)
  | [] => some []
  | [_] => none
  | high :: low :: rest => do
    let h ← value? high
    let l ← value? low
    return UInt8.ofNat (16 * h + l) :: (← decodeDigits rest)

def decode? (text : String) : Option ByteArray :=
  (decodeDigits text.toList).map fun bytes => ⟨bytes.toArray⟩

theorem value?_digit : ∀ n < 16, value? (digit n) = some n := by decide

/-- Every byte sequence is read back from its text. -/
theorem decodeDigits_flatMap_ofByte (bytes : List UInt8) :
    decodeDigits (bytes.flatMap ofByte) = some bytes := by
  induction bytes with
  | nil => rfl
  | cons byte rest ih =>
    have hbyte := byte.toNat_lt
    have hhigh := value?_digit (byte.toNat / 16) (by omega)
    have hlow := value?_digit (byte.toNat % 16) (by omega)
    simp only [List.flatMap_cons, ofByte, List.cons_append, List.nil_append, decodeDigits, hhigh,
      hlow, ih, bind, Option.bind, pure, Nat.div_add_mod, UInt8.ofNat_toNat]

theorem decode?_encode (bytes : ByteArray) : decode? (encode bytes) = some bytes := by
  simp [decode?, encode, decodeDigits_flatMap_ofByte]

end SegmentedFiles.Hex
