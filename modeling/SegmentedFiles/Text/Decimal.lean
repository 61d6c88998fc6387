/-! Natural numbers in decimal: padded to a fixed width, and read back within a bound. -/

namespace SegmentedFiles.Decimal

/-- The decimal digits of `n`, with zeros in front up to `width` digits. -/
def digits (width n : Nat) : List Char :=
  let ds := Nat.toDigits 10 n
  List.replicate (width - ds.length) '0' ++ ds

def padded (width n : Nat) : String := String.ofList (digits width n)

def value (ds : List Char) : Nat := Nat.ofDigitChars 10 ds 0

inductive Failure where
  | empty
  | invalidDigit
  | tooLarge
  deriving DecidableEq, Repr

def Failure.message : Failure → String
  | .empty => "cannot parse integer from empty string"
  | .invalidDigit => "invalid digit found in string"
  | .tooLarge => "number too large to fit in target type"

/-- Read digits onto `n`; the first character that is no digit, or at which the number passes
`bound`, ends the reading. -/
def readDigits (bound : Nat) : List Char → Nat → Except Failure Nat
  | [], n => .ok n
  | c :: cs, n =>
    if c.isDigit then
      let n := 10 * n + (c.toNat - '0'.toNat)
      if n ≤ bound then readDigits bound cs n else .error .tooLarge
    else .error .invalidDigit

/-- Read a whole text as a number up to `bound`. One plus sign may stand in front of the digits. -/
def parse (bound : Nat) (text : String) : Except Failure Nat :=
  match text.toList with
  | [] => .error .empty
  | ['+'] => .error .invalidDigit
  | '+' :: cs => readDigits bound cs 0
  | cs => readDigits bound cs 0

def max64 : Nat := 18446744073709551615

/-- The largest number of 64 bits of which one is the sign. -/
def maxSigned64 : Nat := 9223372036854775807

def max16 : Nat := 65535

end SegmentedFiles.Decimal
