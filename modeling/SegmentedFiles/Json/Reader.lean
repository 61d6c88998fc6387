import SegmentedFiles.Json.Value
import SegmentedFiles.Text.Decimal

/-! Reading JSON from bytes. A reader takes a value from the front and returns the rest. It fails
either because the bytes are not JSON, or because they are but not the value that is wanted; of two
faults the first in the text counts. -/

namespace SegmentedFiles.Json

inductive Failure where
  /-- They are not JSON. -/
  | malformed
  /-- They are another value. -/
  | mismatch
  deriving DecidableEq, Repr

/-- A reader of a value from the front of a text. -/
abbrev Reader (α : Type) := List UInt8 → Except Failure (α × List UInt8)

def byte (c : Char) : UInt8 := UInt8.ofNat c.toNat

def isDigit (b : UInt8) : Bool := byte '0' ≤ b && b ≤ byte '9'

def isBlank (b : UInt8) : Bool := b == 0x20 || b == 0x09 || b == 0x0a || b == 0x0d

def skipBlanks (bs : List UInt8) : List UInt8 := bs.dropWhile isBlank

def readMark (c : Char) : Reader Unit
  | b :: rest => if b = byte c then .ok ((), rest) else .error .malformed
  | [] => .error .malformed

def readWord : List Char → Reader Unit
  | [], bs => .ok ((), bs)
  | c :: cs, b :: rest => if b = byte c then readWord cs rest else .error .malformed
  | _ :: _, [] => .error .malformed

def hexValue? (b : UInt8) : Option Nat :=
  if isDigit b then some (b.toNat - 48)
  else if byte 'a' ≤ b && b ≤ byte 'f' then some (b.toNat - 87)
  else if byte 'A' ≤ b && b ≤ byte 'F' then some (b.toNat - 55)
  else none

def hex? (a b c d : UInt8) : Option Nat := do
  return (← hexValue? a) * 4096 + (← hexValue? b) * 256 + (← hexValue? c) * 16 + (← hexValue? d)

def charBytes (code : Nat) : List UInt8 := (String.singleton (Char.ofNat code)).toUTF8.data.toList

/-- What the letter after a backslash stands for. -/
def escape? (b : UInt8) : Option UInt8 :=
  if b = byte '"' || b = byte '\\' || b = byte '/' then some b
  else if b = byte 'b' then some 8
  else if b = byte 'f' then some 12
  else if b = byte 'n' then some 10
  else if b = byte 'r' then some 13
  else if b = byte 't' then some 9
  else none

def surrogatePair? (first second : Nat) : Option Nat :=
  if 0xd800 ≤ first ∧ first ≤ 0xdbff ∧ 0xdc00 ≤ second ∧ second ≤ 0xdfff then
    some (0x10000 + (first - 0xd800) * 0x400 + (second - 0xdc00))
  else none

/-- The bytes of a string after its opening quote; those read so far are given last first. Half of a
surrogate pair does not stand alone. -/
def readStringBytes (read : List UInt8) : Reader (List UInt8)
  | [] => .error .malformed
  | 0x5c :: 0x75 :: a :: b :: c :: d :: rest =>
    match hex? a b c d with
    | none => .error .malformed
    | some first =>
      if first < 0xd800 ∨ 0xdfff < first then readStringBytes ((charBytes first).reverse ++ read) rest
      else
        match rest with
        | 0x5c :: 0x75 :: a :: b :: c :: d :: rest =>
          match (hex? a b c d).bind (surrogatePair? first) with
          | some code => readStringBytes ((charBytes code).reverse ++ read) rest
          | none => .error .malformed
        | _ => .error .malformed
  | 0x5c :: b :: rest =>
    match escape? b with
    | some b => readStringBytes (b :: read) rest
    | none => .error .malformed
  | b :: rest =>
    if b = byte '"' then .ok (read.reverse, rest)
    else if b < 0x20 || b = 0x5c then .error .malformed
    else readStringBytes (b :: read) rest

def readString : Reader String := fun bs => do
  let (read, rest) ← readStringBytes [] bs
  match String.fromUTF8? ⟨read.toArray⟩ with
  | some s => return (s, rest)
  | none => throw .malformed

def readDigits : Reader (List UInt8) := fun bs =>
  match bs.span isDigit with
  | ([], _) => .error .malformed
  | (ds, rest) => .ok (ds, rest)

structure Numeral where
  sign : List UInt8
  whole : List UInt8
  /-- The digits after the point. None where there is no point. -/
  fraction : List UInt8
  /-- The letter before the power of ten and the sign of that. None where there is no power of ten. -/
  powerMark : List UInt8
  power : List UInt8
  deriving DecidableEq, Repr

namespace Numeral

def isWhole (n : Numeral) : Bool := n.fraction.isEmpty && n.powerMark.isEmpty

def text (n : Numeral) : List UInt8 :=
  n.sign ++ n.whole ++ (if n.fraction.isEmpty then [] else 0x2e :: n.fraction) ++ n.powerMark ++ n.power

end Numeral

/-- The power of ten in a number: its letter and sign, and its digits. -/
def readPower : Reader (List UInt8 × List UInt8) := fun bs =>
  match bs with
  | e :: rest =>
    if e = byte 'e' || e = byte 'E' then do
      let (sign, rest) := match rest with
        | s :: rest' => if s = byte '+' || s = byte '-' then ([s], rest') else ([], rest)
        | [] => ([], rest)
      let (ds, rest) ← readDigits rest
      return ((e :: sign, ds), rest)
    else .ok (([], []), bs)
  | [] => .ok (([], []), bs)

def readNumber : Reader Numeral := fun bs => do
  let (sign, bs) : List UInt8 × List UInt8 := match bs with
    | 0x2d :: rest => ([0x2d], rest)
    | _ => ([], bs)
  let (whole, bs) ← readDigits bs
  if whole.length != 1 && whole.head? == some (byte '0') then throw .malformed
  let (fraction, bs) ← match bs with
    | 0x2e :: rest => readDigits rest
    | _ => pure ([], bs)
  let ((powerMark, power), bs) ← readPower bs
  return (⟨sign, whole, fraction, powerMark, power⟩, bs)

def charsOf (bs : List UInt8) : List Char := bs.map fun b => Char.ofNat b.toNat

/-- The value of a number. A whole number is kept as such if 64 bits can hold it; minus zero is not a
whole number. -/
def Numeral.value (n : Numeral) : Json :=
  let written := Json.decimal (String.ofList (charsOf n.text))
  if n.isWhole then
    let size := Decimal.value (charsOf n.whole)
    if n.sign.isEmpty then if Decimal.max64 < size then written else .integer size
    else if size = 0 ∨ Decimal.maxSigned64 + 1 < size then written
    else .integer (-(size : Int))
  else written

mutual

/-- A value, with lists and objects in it up to `depth` deep. Each step takes at least one byte away,
so `fuel` is the number of bytes. -/
def readValue (fuel depth : Nat) : Reader Json := fun bs =>
  match fuel with
  | 0 => .error .malformed
  | fuel + 1 =>
    match skipBlanks bs with
    | [] => .error .malformed
    | b :: rest =>
      if b = byte '"' then (readString rest).map fun (s, rest) => (.string s, rest)
      else if b = byte '[' then
        if depth = 0 then .error .malformed
        else
          match skipBlanks rest with
          | 0x5d :: rest => .ok (.array [], rest)
          | rest => readItems fuel (depth - 1) [] rest
      else if b = byte '\x7b' then
        if depth = 0 then .error .malformed
        else
          match skipBlanks rest with
          | 0x7d :: rest => .ok (.object [], rest)
          | rest => readFields fuel (depth - 1) [] rest
      else if b = byte 't' then (readWord ['r', 'u', 'e'] rest).map fun (_, rest) => (.bool true, rest)
      else if b = byte 'f' then
        (readWord ['a', 'l', 's', 'e'] rest).map fun (_, rest) => (.bool false, rest)
      else if b = byte 'n' then (readWord ['u', 'l', 'l'] rest).map fun (_, rest) => (.null, rest)
      else if b = byte '-' || isDigit b then
        (readNumber (b :: rest)).map fun (n, rest) => (n.value, rest)
      else .error .malformed

/-- The items of a list after its bracket; those read so far are given last first. -/
def readItems (fuel depth : Nat) (read : List Json) : Reader Json := fun bs =>
  match fuel with
  | 0 => .error .malformed
  | fuel + 1 =>
    match readValue fuel depth bs with
    | .error e => .error e
    | .ok (item, rest) =>
      match skipBlanks rest with
      | 0x2c :: rest => readItems fuel depth (item :: read) rest
      | 0x5d :: rest => .ok (.array (item :: read).reverse, rest)
      | _ => .error .malformed

def readFields (fuel depth : Nat) (read : List (String × Json)) : Reader Json := fun bs =>
  match fuel with
  | 0 => .error .malformed
  | fuel + 1 =>
    match skipBlanks bs with
    | 0x22 :: rest =>
      match readString rest with
      | .error e => .error e
      | .ok (name, rest) =>
        match skipBlanks rest with
        | 0x3a :: rest =>
          match readValue fuel depth rest with
          | .error e => .error e
          | .ok (value, rest) =>
            match skipBlanks rest with
            | 0x2c :: rest => readFields fuel depth ((name, value) :: read) rest
            | 0x7d :: rest => .ok (.object ((name, value) :: read).reverse, rest)
            | _ => .error .malformed
        | _ => .error .malformed
    | _ => .error .malformed

end

/-- How deep lists and objects may stand in each other. -/
def maxDepth : Nat := 127

def parse (bytes : ByteArray) : Except Failure Json := do
  let bs := bytes.data.toList
  let (value, rest) ← readValue (2 * bs.length + 2) maxDepth bs
  if (skipBlanks rest).isEmpty then return value else throw .malformed

end SegmentedFiles.Json
