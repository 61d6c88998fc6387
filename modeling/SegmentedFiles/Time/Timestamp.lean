import SegmentedFiles.Text.Decimal
import SegmentedFiles.Time.Civil

/-! Points in time, and the two forms in which they are written: with a date in digits, and with the
names of day and month as HTTP headers have it. -/

namespace SegmentedFiles

/-- A point in time: whole seconds since 1970 in universal time, and the nanoseconds after them. In a
leap second the nanoseconds count on past one second. -/
structure Timestamp where
  seconds : Int
  nanos : Nat
  deriving DecidableEq, Repr

namespace Timestamp

def epoch : Timestamp := ⟨0, 0⟩

instance : Inhabited Timestamp := ⟨epoch⟩

def billion : Nat := 1000000000

def date (t : Timestamp) : Date := Date.ofDays (t.seconds / 86400)

def secondOfDay (t : Timestamp) : Nat := (t.seconds % 86400).toNat

def hour (t : Timestamp) : Nat := t.secondOfDay / 3600

def minute (t : Timestamp) : Nat := t.secondOfDay / 60 % 60

/-- The second of the minute, sixty in a leap second. -/
def second (t : Timestamp) : Nat := t.secondOfDay % 60 + t.nanos / billion

def fraction (t : Timestamp) : Nat := t.nanos % billion

/-- Four digits of a year; outside of them a sign is written. -/
def yearText (year : Int) : String :=
  if 0 ≤ year ∧ year ≤ 9999 then Decimal.padded 4 year.toNat
  else (if year < 0 then "-" else "+") ++ Decimal.padded 4 year.natAbs

def two (n : Nat) : String := Decimal.padded 2 n

def clockText (t : Timestamp) : String :=
  two t.hour ++ ":" ++ two t.minute ++ ":" ++ two t.second

/-- A fraction of a second, with three, six or nine digits, the fewest that are exact. -/
def fractionText (nanos : Nat) : String :=
  if nanos = 0 then ""
  else if nanos % 1000000 = 0 then "." ++ Decimal.padded 3 (nanos / 1000000)
  else if nanos % 1000 = 0 then "." ++ Decimal.padded 6 (nanos / 1000)
  else "." ++ Decimal.padded 9 nanos

/-- The RFC 3339 form in universal time, as in `2024-02-29T23:05:06.789Z`. -/
def toRfc3339 (t : Timestamp) : String :=
  yearText t.date.year ++ "-" ++ two t.date.month ++ "-" ++ two t.date.day ++ "T" ++ t.clockText
    ++ fractionText t.fraction ++ "Z"

def weekdayNames : List String := ["Sun", "Mon", "Tue", "Wed", "Thu", "Fri", "Sat"]

def monthNames : List String :=
  ["Jan", "Feb", "Mar", "Apr", "May", "Jun", "Jul", "Aug", "Sep", "Oct", "Nov", "Dec"]

/-- The form of HTTP headers, as in `Thu, 29 Feb 2024 23:05:06 GMT`. -/
def toHttpDate (t : Timestamp) : String :=
  weekdayNames.getD (Date.weekday (t.seconds / 86400)) "" ++ ", " ++ two t.date.day ++ " "
    ++ monthNames.getD (t.date.month - 1) "" ++ " " ++ yearText t.date.year ++ " " ++ t.clockText
    ++ " GMT"

/-- The point in time at which the clocks of a place show this, `offset` seconds ahead of universal
time. The second may be the sixtieth, a leap second. The years that a time may lie in bound both the
date that the clocks show and that in universal time. -/
def ofClock? (date : Date) (hour minute second nanos : Nat) (offset : Int) : Option Timestamp :=
  if date.isValid && hour ≤ 23 && minute ≤ 59 && second ≤ 60 && nanos < billion
      && offset.natAbs < 86400 then
    let leap := second == 60
    let seconds := date.toDays * 86400 + (hour * 3600 + minute * 60 + min second 59 : Nat) - offset
    let t : Timestamp := ⟨seconds, nanos + if leap then billion else 0⟩
    if t.date.isValid then some t else none
  else none

end Timestamp

end SegmentedFiles
