/-! Byte ranges. In the program a range is half open; in a request header it is inclusive. -/

namespace SegmentedFiles

/-- The bytes from `start` up to, not including, `stop`, or to the end. -/
structure ByteRange where
  start : Nat
  stop : Option Nat
  deriving DecidableEq, Repr

namespace ByteRange

def onward (start : Nat) : ByteRange := ⟨start, none⟩

def bounded (start stop : Nat) : ByteRange := ⟨start, some stop⟩

def header (r : ByteRange) : String :=
  match r.stop with
  | some stop => "bytes=" ++ r.start.repr ++ "-" ++ (stop - 1).repr
  | none => "bytes=" ++ r.start.repr ++ "-"

/-- The half-open form, for people. -/
def text (r : ByteRange) : String :=
  match r.stop with
  | some stop => "[" ++ r.start.repr ++ ", " ++ stop.repr ++ ")"
  | none => "[" ++ r.start.repr ++ ", ..)"

/-- The part of `length` bytes that the range selects, from where to where; none when it starts at or
past the end. -/
def resolve? (r : ByteRange) (length : Nat) : Option (Nat × Nat) :=
  if length ≤ r.start then none
  else some (r.start, max r.start (match r.stop with | some stop => min stop length | none => length))

theorem resolve?_eq_none_iff {r : ByteRange} {length : Nat} :
    r.resolve? length = none ↔ length ≤ r.start := by
  unfold resolve?
  split <;> simp_all

end ByteRange

end SegmentedFiles
