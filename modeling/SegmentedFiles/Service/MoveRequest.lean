import SegmentedFiles.Json.Skip

/-! The body of a request to move a file: an object with the fields `source` and `destination`, among
others that are passed over, or a list of the two. -/

namespace SegmentedFiles.Service

structure MoveRequest where
  source : String
  destination : String
  deriving DecidableEq, Repr

namespace MoveRequest

open Json

/-- The fields of an object after its brace; `first` when none has been read. Each step takes at least
one byte away, so `fuel` is the number of bytes. A field may be given once, and both must be. -/
def readFields (fuel : Nat) (first : Bool) (source destination : Option String) :
    Reader MoveRequest := fun bs =>
  match fuel with
  | 0 => .error .malformed
  | fuel + 1 =>
    let field (bs : List UInt8) : Except Failure (MoveRequest × List UInt8) :=
      match bs with
      | 0x22 :: rest => do
        let (name, rest) ← readString rest
        let value : Except Failure (List UInt8) :=
          match skipBlanks rest with
          | 0x3a :: rest => .ok rest
          | _ => .error .malformed
        if name = "source" then
          if source.isSome then throw .mismatch
          let (text, rest) ← wantString (← value)
          readFields fuel false (some text) destination rest
        else if name = "destination" then
          if destination.isSome then throw .mismatch
          let (text, rest) ← wantString (← value)
          readFields fuel false source (some text) rest
        else
          readFields fuel false source destination (← skipValue (← value))
      | _ => .error .malformed
    match skipBlanks bs with
    | 0x7d :: rest =>
      match source, destination with
      | some source, some destination => .ok (⟨source, destination⟩, rest)
      | _, _ => .error .mismatch
    | 0x2c :: rest => if first then .error .malformed else field (skipBlanks rest)
    | rest => if first then field rest else .error .malformed

def readItems : Reader MoveRequest := fun bs => do
  let source ← match skipBlanks bs with
    | 0x5d :: _ => throw .mismatch
    | rest => wantString rest
  let destination ← match skipBlanks source.2 with
    | 0x2c :: rest =>
      match skipBlanks rest with
      | 0x5d :: _ => throw .malformed
      | rest => wantString rest
    | 0x5d :: _ => throw .mismatch
    | _ => throw .malformed
  let (_, rest) ← readMark ']' (skipBlanks destination.2)
  return (⟨source.1, destination.1⟩, rest)

/-- Read the request. Nothing may follow it. -/
def parse (bytes : ByteArray) : Except Failure MoveRequest := do
  let bs := skipBlanks bytes.data.toList
  let (request, rest) ← match bs with
    | 0x7b :: rest => readFields (bs.length + 1) true none none rest
    | 0x5b :: rest => readItems rest
    | _ => throw (unwanted bs)
  if (skipBlanks rest).isEmpty then return request else throw .malformed

end MoveRequest

end SegmentedFiles.Service
