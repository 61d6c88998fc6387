import SegmentedFiles.Json.Reader

/-! The magnitude of a number as floating-point arithmetic has it: the leading digits that 64 bits hold,
times a power of ten, each rounded to 53 binary digits. Some numbers are too large for it. -/

namespace SegmentedFiles.Json

def precision : Nat := 53

/-- The nearest number with as many binary digits as are kept; of two that are as near, the even one. -/
def nearest (n : Nat) : Nat :=
  let unit := 1 <<< (n.log2 + 1 - precision)
  let kept := n / unit
  let doubled := 2 * (n % unit)
  let up := unit < doubled || (unit == doubled && kept % 2 == 1)
  (if up then kept + 1 else kept) * unit

/-- Numbers from this one on are too large: it lies half a unit above the largest that is kept. -/
def tooLarge : Nat := (1 <<< (precision + 1) - 1) <<< 970

def maxPower : Int := 308

/-- Append digits to a number as long as 64 bits hold it. Returns how many are left, too. -/
def appendDigits (n : Nat) : List UInt8 → Nat × Nat
  | [] => (n, 0)
  | d :: ds =>
    let longer := 10 * n + (d.toNat - 48)
    if Decimal.max64 < longer then (n, ds.length + 1) else appendDigits longer ds

namespace Numeral

def writtenPower (n : Numeral) : Int :=
  let size : Int := Decimal.value (charsOf n.power)
  if n.powerMark.getLast? = some (byte '-') then -size else size

/-- The leading digits, and the power of ten that they are multiplied with. -/
def parts (n : Numeral) : Nat × Int :=
  let (significand, left) := appendDigits 0 n.whole
  let (significand, ignored) := appendDigits significand n.fraction
  (significand, (left : Int) - (n.fraction.length - ignored : Nat) + n.writtenPower)

def isTooLarge (n : Numeral) : Bool :=
  let (significand, power) := n.parts
  significand != 0 && (maxPower < power || (0 ≤ power &&
    tooLarge ≤ nearest significand * nearest (Nat.pow 10 power.toNat)))

end Numeral

end SegmentedFiles.Json
