/-! Cutting names apart at a character or at a leading text. The operations are stated on the list of
characters, so that a fact about a name is a fact about a list. -/

namespace SegmentedFiles.Text

/-- `s` without the `c`s at its beginning. -/
def trimStart (c : Char) (s : String) : String := String.ofList (s.toList.dropWhile (· == c))

def trimEnd (c : Char) (s : String) : String :=
  String.ofList (s.toList.reverse.dropWhile (· == c)).reverse

def trim (c : Char) (s : String) : String := trimEnd c (trimStart c s)

def startsWith (s start : String) : Bool := start.toList.isPrefixOf s.toList

/-- What follows `start` in `s`, if `s` begins with `start`. -/
def after? (start s : String) : Option String :=
  if startsWith s start then some (String.ofList (s.toList.drop start.toList.length)) else none

/-- `s` without the copies of `start` at its beginning. An empty `start` takes nothing away. -/
def trimLeading (start s : String) : String := go s.toList.length s
where
  /-- Take away at most `fuel` copies; each is at least one character long. -/
  go : Nat → String → String
    | 0, s => s
    | fuel + 1, s =>
      if start.isEmpty then s
      else match after? start s with
        | some rest => go fuel rest
        | none => s

/-- The pieces of `s` between the `c`s. There is always at least one. -/
def splitAt (c : Char) (s : String) : List String := (s.toList.splitOn c).map String.ofList

def splitFirst? (c : Char) (s : String) : Option (String × String) :=
  match s.toList.span (· != c) with
  | (before, _ :: behind) => some (String.ofList before, String.ofList behind)
  | (_, []) => none

def beforeLast? (c : Char) (s : String) : Option String :=
  match s.toList.reverse.dropWhile (· != c) with
  | _ :: before => some (String.ofList before.reverse)
  | [] => none

theorem startsWith_iff {s start : String} :
    startsWith s start = true ↔ start.toList <+: s.toList := by
  simp [startsWith]

theorem after?_eq_some_iff {start s rest : String} :
    after? start s = some rest ↔ s = start ++ rest := by
  rw [after?, ← String.toList_inj]
  constructor
  · intro h
    split at h
    · next hs =>
      obtain ⟨tail, htail⟩ := startsWith_iff.1 hs
      cases h
      simp [← htail]
    · simp at h
  · intro h
    have hs : startsWith s start = true := startsWith_iff.2 ⟨rest.toList, by simp [h]⟩
    simp [hs, h]

end SegmentedFiles.Text
