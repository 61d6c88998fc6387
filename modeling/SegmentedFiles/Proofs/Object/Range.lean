import SegmentedFiles.Local.Store
import SegmentedFiles.Proofs.Store.Lookup
import SegmentedFiles.Proofs.Text.Decimal
import SegmentedFiles.Proofs.Text.Pieces

/-! # What a range selects

In a request header the last position of a range is one of those that are asked for, so a header can ask
for no empty range. A range that has positions is written into a header that names just these
(`positions?_header`). Read against an object of some length, such a header selects the bytes to which the
range is cut (`resolve?_selects`), and a range has nothing to select only if it starts at the end or behind
it, which is when a store refuses it. -/

namespace SegmentedFiles

namespace Http

/-- A position, written with one digit or more. -/
def position? (text : String) : Option Nat :=
  if !text.isEmpty && text.toList.all Char.isDigit then some (Decimal.value text.toList) else none

/-- The first position that a range header asks for, and the last if there is one. It does not come
before the first. -/
def positions? (header : String) : Option (Nat × Option Nat) := do
  let written ← Text.after? "bytes=" header
  let (first, last) ← Text.splitFirst? '-' written
  let first ← position? first
  if last.isEmpty then return (first, none)
  let last ← position? last
  if last < first then none else return (first, some last)

/-- Position `i` of an object of `length` bytes is one that the header asks for. -/
def Selects (header : String) (length i : Nat) : Prop :=
  ∃ first last, positions? header = some (first, last) ∧ first ≤ i ∧ i < length ∧
    ∀ stop, last = some stop → i ≤ stop

theorem isEmpty_repr (n : Nat) : n.repr.isEmpty = false :=
  String.isEmpty_eq_false_iff.2 Nat.repr_ne_empty

theorem position?_repr (n : Nat) : position? n.repr = some n := by
  have hdigits : n.repr.toList.all Char.isDigit = true := by
    rw [Nat.toList_repr, List.all_eq_true]
    exact fun c hc => Nat.isDigit_of_mem_toDigits (by decide) (by decide) hc
  rw [position?, hdigits, isEmpty_repr, Decimal.value, Nat.toList_repr, Nat.ofDigitChars_ten_toDigits]
  rfl

/-- A number is cut off at the hyphen behind it. -/
theorem splitFirst?_repr (n : Nat) (text : String) :
    Text.splitFirst? '-' (n.repr ++ "-" ++ text) = some (n.repr, text) := by
  rw [Text.splitFirst?_eq_some_iff, String.toList_append, String.toList_append, List.append_assoc]
  refine ⟨rfl, fun hmem => ?_⟩
  rw [Nat.toList_repr] at hmem
  exact absurd (Nat.isDigit_of_mem_toDigits (by decide) (by decide) hmem) (by decide)

end Http

/-! ## Ranges in headers -/

namespace ByteRange

variable {r : ByteRange} {length : Nat}

/-- The range ends behind where it starts, if it has an end. -/
def HasPositions (r : ByteRange) : Prop := ∀ stop, r.stop = some stop → r.start < stop

/-- The header of a range names the first of its positions and the last. -/
theorem positions?_header (h : r.HasPositions) :
    Http.positions? r.header = some (r.start, r.stop.map (· - 1)) := by
  obtain ⟨start, stop⟩ := r
  cases stop with
  | none =>
    have hafter : Text.after? "bytes=" (header ⟨start, none⟩) = some (start.repr ++ "-" ++ "") :=
      Text.after?_eq_some_iff.2 (by simp only [header, String.append_assoc, String.append_empty])
    simp only [Http.positions?, hafter, Option.bind_eq_bind, Option.bind_some, Http.splitFirst?_repr,
      Http.position?_repr]
    rfl
  | some stop =>
    have hlt : start < stop := h stop rfl
    have hafter : Text.after? "bytes=" (header ⟨start, some stop⟩)
        = some (start.repr ++ "-" ++ (stop - 1).repr) :=
      Text.after?_eq_some_iff.2 (by simp only [header, String.append_assoc])
    simp only [Http.positions?, hafter, Option.bind_eq_bind, Option.bind_some, Http.splitFirst?_repr,
      Http.position?_repr, Http.isEmpty_repr, Bool.false_eq_true, if_false]
    exact if_neg (by omega)

/-- A range and its header select the same bytes of an object that the range begins in. -/
theorem resolve?_selects (h : r.HasPositions) (hstart : r.start < length) :
    ∃ start stop, r.resolve? length = some (start, stop) ∧ start < stop ∧ stop ≤ length ∧
      ∀ i, Http.Selects r.header length i ↔ start ≤ i ∧ i < stop := by
  have hselects : ∀ i, Http.Selects r.header length i ↔
      r.start ≤ i ∧ i < length ∧ ∀ stop, r.stop = some stop → i < stop := by
    intro i
    unfold Http.Selects
    rw [positions?_header h]
    constructor
    · rintro ⟨first, last, heq, hfirst, hlength, hlast⟩
      obtain ⟨rfl, rfl⟩ := Prod.mk.inj (Option.some.inj heq)
      refine ⟨hfirst, hlength, fun stop hstop => ?_⟩
      have hle := hlast (stop - 1) (by rw [hstop, Option.map_some])
      have hlt := h stop hstop
      omega
    · rintro ⟨hfirst, hlength, hlast⟩
      refine ⟨_, _, rfl, hfirst, hlength, fun last heq => ?_⟩
      obtain ⟨stop, hstop, rfl⟩ := Option.map_eq_some_iff.1 heq
      exact Nat.le_sub_one_of_lt (hlast stop hstop)
  obtain ⟨start, stop⟩ := r
  cases stop with
  | none =>
    refine ⟨start, max start length, if_neg (Nat.not_le.2 hstart), ?_⟩
    dsimp only at hstart
    refine ⟨by omega, by omega, fun i => ?_⟩
    rw [hselects]
    simp only [reduceCtorEq, false_implies, implies_true, and_true]
    omega
  | some stop =>
    have hlt : start < stop := h stop rfl
    refine ⟨start, max start (min stop length), if_neg (Nat.not_le.2 hstart), ?_⟩
    dsimp only at hstart
    refine ⟨by omega, by omega, fun i => ?_⟩
    rw [hselects]
    simp only [Option.some.injEq, forall_eq']
    omega

end ByteRange

/-! ## Ranges that stores refuse -/

/-- A store on a disk refuses a range that starts at the end of a content or behind it. -/
theorem LocalStore.slice_refuses_iff {content : Payload} {r : ByteRange} :
    slice content r = .error .rangeNotSatisfiable ↔ content.size ≤ r.start := by
  rw [← ByteRange.resolve?_eq_none_iff, slice]
  cases r.resolve? content.size with
  | none => simp
  | some part => simp

/-- So does a store in memory, of an object that it has. -/
theorem MemoryStore.read_refuses_iff {m : MemoryStore} {c n : String} {o : StoredObject} {r : ByteRange}
    (ho : m.object? c n = some o) :
    m.read c n (some r) = .error .rangeNotSatisfiable ↔ (m.resolve o).size ≤ r.start := by
  rw [← ByteRange.resolve?_eq_none_iff, read, ho]
  dsimp only
  cases r.resolve? (m.resolve o).size with
  | none => simp
  | some part => simp

end SegmentedFiles
