import SegmentedFiles.Text.Blank
import SegmentedFiles.Time.Timestamp

/-! Reading points in time: the RFC 3339 form with some freedom, the RFC 2822 form of HTTP and mail
headers, and the form without an offset that container listings have. A reader takes what it needs
from the front of a text and returns the rest. -/

namespace SegmentedFiles.Timestamp

/-- A reader of a value from the front of a text. -/
abbrev Reader (α : Type) := List Char → Option (α × List Char)

def skipBlanks (cs : List Char) : List Char := cs.dropWhile Text.isBlank

/-- At least one and at most `width` digits. -/
def readNumber (width : Nat) : Reader Nat := fun cs =>
  let ds := (cs.take width).takeWhile Char.isDigit
  if ds.isEmpty then none else some (Decimal.value ds, cs.drop ds.length)

/-- A number after blanks. -/
def readField (width : Nat) : Reader Nat := fun cs => readNumber width (skipBlanks cs)

/-- A year: four digits, or any number of them after a sign. -/
def readYear : Reader Int := fun cs =>
  match skipBlanks cs with
  | '-' :: rest => do
    let (n, rest) ← readNumber rest.length rest
    return (-(n : Int), rest)
  | '+' :: rest => do
    let (n, rest) ← readNumber rest.length rest
    return ((n : Int), rest)
  | rest => do
    let (n, rest) ← readNumber 4 rest
    return ((n : Int), rest)

def readMark (mark : Char) : Reader Unit := fun cs =>
  match cs with
  | c :: rest => if c = mark then some ((), rest) else none
  | [] => none

/-- A fraction after a point, in nanoseconds; digits past the ninth are dropped. -/
def readFraction : Reader Nat := fun cs =>
  match cs with
  | '.' :: rest =>
    let ds := rest.takeWhile Char.isDigit
    if ds.isEmpty then none
    else
      let kept := ds.take 9
      some (Decimal.value (kept ++ List.replicate (9 - kept.length) '0'), rest.drop ds.length)
  | _ => some (0, cs)

def readClock : Reader (Nat × Nat × Nat × Nat) := fun cs => do
  let (hour, cs) ← readField 2 cs
  let (_, cs) ← readMark ':' (skipBlanks cs)
  let (minute, cs) ← readField 2 cs
  let (_, cs) ← readMark ':' (skipBlanks cs)
  let (second, cs) ← readField 2 cs
  let (nanos, cs) ← readFraction cs
  return ((hour, minute, second, nanos), cs)

/-- Two digits, the first of them at most `most`. -/
def readPair (most : Nat) : Reader Nat := fun cs =>
  match cs with
  | a :: b :: rest =>
    if a.isDigit && b.isDigit && a.toNat - '0'.toNat ≤ most then some (Decimal.value [a, b], rest)
    else none
  | _ => none

/-- Hours and minutes ahead of universal time, in seconds, after a sign; `skip` takes away what may
stand between them. -/
def readSigned (skip : List Char → List Char) : Reader Int := fun cs => do
  let (negative, cs) ← match cs with
    | '+' :: rest => some (false, rest)
    | '-' :: rest => some (true, rest)
    | '\u2212' :: rest => some (true, rest)
    | _ => none
  let (hours, cs) ← readPair 9 cs
  let (minutes, cs) ← readPair 5 (skip cs)
  let seconds : Int := (hours * 3600 + minutes * 60 : Nat)
  return (if negative then -seconds else seconds, cs)

/-- An offset from universal time: `Z`, `UTC`, or hours and minutes. -/
def readOffset : Reader Int := fun cs =>
  match cs.map Char.toUpper with
  | 'Z' :: _ => some (0, cs.drop 1)
  | 'U' :: 'T' :: 'C' :: _ => some (0, cs.drop 3)
  | _ => readSigned (fun cs => cs.dropWhile fun c => c == ':' || Text.isBlank c) cs

def readDate : Reader Date := fun cs => do
  let (year, cs) ← readYear cs
  let (_, cs) ← readMark '-' (skipBlanks cs)
  let (month, cs) ← readField 2 cs
  let (_, cs) ← readMark '-' (skipBlanks cs)
  let (day, cs) ← readField 2 cs
  return (⟨year, month, day⟩, cs)

/-- Read a date, a time of day and an offset. `T` or a blank stands between date and time, and blanks
may stand around the parts. -/
def ofRfc3339? (text : String) : Option Timestamp := do
  let (date, cs) ← readDate text.toList
  let cs ← match cs with
    | 'T' :: rest | 't' :: rest | ' ' :: rest => some rest
    | _ => none
  let ((hour, minute, second, nanos), cs) ← readClock cs
  let (offset, cs) ← readOffset (skipBlanks cs)
  if (skipBlanks cs).isEmpty then ofClock? date hour minute second nanos offset else none

/-- Read a date and a time of day in universal time, as in `2016-11-03T12:34:56.123456`. -/
def ofListing? (text : String) : Option Timestamp := do
  let (date, cs) ← readDate text.toList
  let (_, cs) ← readMark 'T' cs
  let ((hour, minute, second, nanos), cs) ← readClock cs
  if cs.isEmpty then ofClock? date hour minute second nanos 0 else none

/-- The place of a three-letter name in a list of names, letter case apart. -/
def readName (names : List String) : Reader Nat := fun cs =>
  let name := (cs.take 3).map Char.toLower
  match names.findIdx? fun n => n.toList.map Char.toLower == name with
  | some i => some (i, cs.drop 3)
  | none => none

def zoneHours : List (String × Int) :=
  [("gmt", 0), ("ut", 0), ("z", 0), ("edt", -4), ("est", -5), ("cdt", -5), ("cst", -6),
    ("mdt", -6), ("mst", -7), ("pdt", -7), ("pst", -8)]

/-- A zone of the RFC 2822 form: four digits after a sign, or a name. -/
def readZone : Reader Int := fun cs =>
  let name := (cs.takeWhile Char.isAlpha).map Char.toLower
  if name.isEmpty then readSigned id cs
  else
    match zoneHours.find? fun zone => zone.1.toList == name with
    | some (_, hours) => some (hours * 3600, cs.drop name.length)
    | none => if name.length = 1 then some (0, cs.drop 1) else none

/-- Years of two or three digits count from 1900, those below fifty from 2000. -/
def fullYear (digits year : Nat) : Nat :=
  if digits ≤ 2 then if year < 50 then 2000 + year else 1900 + year
  else if digits = 3 then 1900 + year
  else year

/-- Read the RFC 2822 form, as in `Tue, 15 Nov 1994 08:12:31 GMT`. A weekday has to be the right
one. -/
def ofRfc2822? (text : String) : Option Timestamp := do
  let cs := skipBlanks text.toList
  let (weekday, cs) ← match readName weekdayNames cs with
    | some (day, rest) => do
      let (_, rest) ← readMark ',' rest
      pure (some day, rest)
    | none => pure (none, cs)
  let (day, cs) ← readField 2 cs
  let (month, cs) ← readName monthNames (skipBlanks cs)
  let cs := skipBlanks cs
  let yearDigits := (cs.takeWhile Char.isDigit).length
  if yearDigits < 2 then none
  let (year, cs) ← readNumber yearDigits cs
  let (hour, cs) ← readField 2 cs
  let (_, cs) ← readMark ':' (skipBlanks cs)
  let (minute, cs) ← readField 2 cs
  let (second, cs) ← match skipBlanks cs with
    | ':' :: rest => readField 2 rest
    | _ => some (0, cs)
  let (offset, cs) ← readZone (skipBlanks cs)
  let date : Date := ⟨fullYear yearDigits year, month + 1, day⟩
  if weekday.any (· != Date.weekday date.toDays) then none
  if (skipBlanks cs).isEmpty then ofClock? date hour minute second 0 offset else none

end SegmentedFiles.Timestamp
