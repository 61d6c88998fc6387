import SegmentedFiles.Json.Magnitude

/-! Passing over JSON values, and telling what stands in the place of a value that is wanted. Lists
and objects in each other are counted on a stack, so they may be of any depth. -/

namespace SegmentedFiles.Json

/-- Pass over a string after its opening quote. Its bytes need not be valid text. -/
def skipString : List UInt8 → Except Failure (List UInt8)
  | [] => .error .malformed
  | 0x5c :: 0x75 :: a :: b :: c :: d :: rest =>
    if (hex? a b c d).isSome then skipString rest else .error .malformed
  | 0x5c :: b :: rest => if (escape? b).isSome then skipString rest else .error .malformed
  | b :: rest =>
    if b = byte '"' then .ok rest
    else if b < 0x20 || b = 0x5c then .error .malformed
    else skipString rest

inductive Frame where
  | array
  | object
  deriving DecidableEq, Repr

/-- Pass over a value, or go on after one, inside the frames on a stack. Each step takes at least one
byte away, so `fuel` is the number of bytes. -/
def skipFrames (fuel : Nat) (stack : List Frame) (afterValue : Bool) (bs : List UInt8) :
    Except Failure (List UInt8) :=
  match fuel with
  | 0 => .error .malformed
  | fuel + 1 =>
    /- The name of a field and its colon, up to the value. -/
    let key (stack : List Frame) (bs : List UInt8) : Except Failure (List UInt8) :=
      match bs with
      | 0x22 :: rest => do
        let rest ← skipString rest
        match skipBlanks rest with
        | 0x3a :: rest => skipFrames fuel stack false rest
        | _ => throw .malformed
      | _ => .error .malformed
    if afterValue then
      match stack with
      | [] => .ok bs
      | .array :: outer =>
        match skipBlanks bs with
        | 0x2c :: rest => skipFrames fuel stack false rest
        | 0x5d :: rest => skipFrames fuel outer true rest
        | _ => .error .malformed
      | .object :: outer =>
        match skipBlanks bs with
        | 0x2c :: rest => key stack (skipBlanks rest)
        | 0x7d :: rest => skipFrames fuel outer true rest
        | _ => .error .malformed
    else
      match skipBlanks bs with
      | [] => .error .malformed
      | b :: rest =>
        if b = byte '"' then do
          skipFrames fuel stack true (← skipString rest)
        else if b = byte '[' then
          match skipBlanks rest with
          | 0x5d :: rest => skipFrames fuel stack true rest
          | rest => skipFrames fuel (.array :: stack) false rest
        else if b = byte '\x7b' then
          match skipBlanks rest with
          | 0x7d :: rest => skipFrames fuel stack true rest
          | rest => key (.object :: stack) rest
        else if b = byte 't' then do
          skipFrames fuel stack true (← readWord ['r', 'u', 'e'] rest).2
        else if b = byte 'f' then do
          skipFrames fuel stack true (← readWord ['a', 'l', 's', 'e'] rest).2
        else if b = byte 'n' then do
          skipFrames fuel stack true (← readWord ['u', 'l', 'l'] rest).2
        else if b = byte '-' || isDigit b then do
          skipFrames fuel stack true (← readNumber (b :: rest)).2
        else .error .malformed

def skipValue (bs : List UInt8) : Except Failure (List UInt8) :=
  skipFrames (2 * bs.length + 2) [] false bs

/-- Pass over a number that has to have a magnitude. -/
def readMagnitude : Reader Unit := fun bs => do
  let (n, rest) ← readNumber bs
  if n.isTooLarge then throw .malformed
  return ((), rest)

/-- The failure where a value of another kind is wanted: if what stands there is a value at all, it is
the wrong one. A list or an object is known by its first character. A number that is too large is no
value. -/
def unwanted (bs : List UInt8) : Failure :=
  let outcome {α : Type} (result : Except Failure α) : Failure :=
    match result with
    | .ok _ => .mismatch
    | .error e => e
  match bs with
  | [] => .malformed
  | b :: rest =>
    if b = byte '[' || b = byte '\x7b' then .mismatch
    else if b = byte '"' then outcome (readString rest)
    else if b = byte 't' then outcome (readWord ['r', 'u', 'e'] rest)
    else if b = byte 'f' then outcome (readWord ['a', 'l', 's', 'e'] rest)
    else if b = byte 'n' then outcome (readWord ['u', 'l', 'l'] rest)
    else if b = byte '-' || isDigit b then outcome (readMagnitude bs)
    else .malformed

def wantString : Reader String := fun bs =>
  match skipBlanks bs with
  | 0x22 :: rest => readString rest
  | rest => .error (unwanted rest)

end SegmentedFiles.Json
