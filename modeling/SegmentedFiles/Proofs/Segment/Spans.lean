import Mathlib.Algebra.Ring.Nat
import SegmentedFiles.Proofs.Segment.Plan

/-! # What a plan says of segments of any lengths

In the look for an offset each segment takes up its span: its length, the last one a chunk at least, and a
segment that is not there yet a chunk (`WritePlan.span`). The look stops at the segment whose span the offset
lies in, or behind them all (`locate_cases`). All that a plan says follows from this: it begins where the spans
before its segment end, and no more is taken away from a number than there is (`make_spans`). If all segments
but the last are whole chunks, all spans are chunks, and the plan is a matter of division. -/

namespace SegmentedFiles.WritePlan

variable {offset chunk i : Nat} {lengths before rest : List Nat}

/-! ## Spans -/

/-- How many bytes segment `i`, counted from 0, takes up. -/
def span (lengths : List Nat) (chunk i : Nat) : Nat :=
  if i + 1 < lengths.length then lengths.getD i 0
  else if i + 1 = lengths.length then max (lengths.getD i 0) chunk
  else chunk

/-- Where segment `i`, counted from 0, begins: the spans of those before it together. -/
def startOf (lengths : List Nat) (chunk i : Nat) : Nat :=
  ((List.range i).map (span lengths chunk)).sum

@[simp] theorem startOf_zero : startOf lengths chunk 0 = 0 := rfl

theorem startOf_succ (lengths : List Nat) (chunk i : Nat) :
    startOf lengths chunk (i + 1) = startOf lengths chunk i + span lengths chunk i := by
  rw [startOf, List.range_succ, List.map_append, List.sum_append, startOf, List.map_singleton,
    List.sum_singleton]

/-- Behind the segments that there are each takes up a chunk. -/
theorem startOf_add_length (gap : Nat) :
    startOf lengths chunk (lengths.length + gap) = startOf lengths chunk lengths.length + gap * chunk := by
  induction gap with
  | zero => rw [Nat.add_zero, Nat.zero_mul, Nat.add_zero]
  | succ gap ih =>
    have hspan : span lengths chunk (lengths.length + gap) = chunk := by
      rw [span, if_neg (by omega), if_neg (by omega)]
    rw [← Nat.add_assoc, startOf_succ, ih, hspan, Nat.succ_mul, Nat.add_assoc]

/-- The span of a segment is what the look for an offset takes it for. -/
theorem span_append {length : Nat} : span (before ++ length :: rest) chunk before.length
    = if rest.isEmpty then max length chunk else length := by
  have hlength : (before ++ length :: rest).getD before.length 0 = length := by
    rw [List.getD_eq_getElem?_getD, List.getElem?_append_right (Nat.le_refl _), Nat.sub_self]
    rfl
  rw [span, hlength, List.length_append, List.length_cons]
  cases rest with
  | nil => rw [List.length_nil, if_neg (by omega), if_pos (by omega), List.isEmpty_nil, if_pos rfl]
  | cons second rest =>
    rw [List.length_cons, if_pos (by omega), List.isEmpty_cons, if_neg Bool.false_ne_true]

/-! ## The look for an offset -/

/-- The look for an offset that does not lie before the segments still to be looked at ends at the one that
the offset lies in, or behind them all. -/
theorem locate_of_append (before : List Nat) (hlengths : before ++ rest = lengths)
    (hstart : startOf lengths chunk before.length ≤ offset) :
    (∃ i length, locate offset chunk (before.length + 1) (startOf lengths chunk before.length) rest
        = .inside (i + 1) (startOf lengths chunk i) length ∧ lengths[i]? = some length ∧
        startOf lengths chunk i ≤ offset ∧ offset < startOf lengths chunk (i + 1)) ∨
      locate offset chunk (before.length + 1) (startOf lengths chunk before.length) rest
        = .beyond (lengths.length + 1) (startOf lengths chunk lengths.length) ∧
        startOf lengths chunk lengths.length ≤ offset := by
  induction rest generalizing before with
  | nil =>
    rw [List.append_nil] at hlengths
    subst hlengths
    exact .inr ⟨rfl, hstart⟩
  | cons length rest ih =>
    have hspan : span lengths chunk before.length = if rest.isEmpty then max length chunk else length := by
      rw [← hlengths, span_append]
    have hnext := startOf_succ lengths chunk before.length
    rw [locate, ← hspan, ← hnext]
    by_cases hin : offset < startOf lengths chunk (before.length + 1)
    · refine .inl ⟨before.length, length, ?_, ?_, hstart, hin⟩
      · exact if_pos hin
      · rw [← hlengths, List.getElem?_append_right (Nat.le_refl _), Nat.sub_self, List.getElem?_cons_zero]
    · have hbehind : (before ++ [length]).length = before.length + 1 := by
        rw [List.length_append, List.length_singleton]
      have hih := ih (before ++ [length]) (by rw [← hlengths, List.append_assoc]; rfl)
        (by rw [hbehind]; exact Nat.not_lt.1 hin)
      rw [hbehind] at hih
      rw [if_neg hin]
      exact hih

/-- An offset is found in the span of a segment, or behind all of them. -/
theorem locate_cases (offset : Nat) (lengths : List Nat) (chunk : Nat) :
    (∃ i length, locate offset chunk 1 0 lengths = .inside (i + 1) (startOf lengths chunk i) length ∧
        lengths[i]? = some length ∧ startOf lengths chunk i ≤ offset ∧
        offset < startOf lengths chunk (i + 1)) ∨
      locate offset chunk 1 0 lengths
        = .beyond (lengths.length + 1) (startOf lengths chunk lengths.length) ∧
        startOf lengths chunk lengths.length ≤ offset :=
  locate_of_append [] rfl (Nat.zero_le offset)

/-! ## Subtractions -/

/-- The difference, if it is not negative. -/
def minus? (a b : Nat) : Option Nat := if b ≤ a then some (a - b) else none

theorem minus?_of_le {a b : Nat} (h : b ≤ a) : minus? a b = some (a - b) := if_pos h

/-- The plan, made with numbers from which no more can be taken away than they are. -/
def makeChecked? (offset : Nat) (lengths : List Nat) (chunk : Nat) : Option WritePlan :=
  match locate offset chunk 1 0 lengths with
  | .inside sequence cursor length => do
    let leading ← minus? offset cursor
    let retained := min leading length
    let zeroFill ← minus? leading retained
    return ⟨sequence, cursor, retained, zeroFill, none, sequence, sequence⟩
  | .beyond sequence cursor => do
    let behind ← minus? offset cursor
    let gap := behind / chunk
    let start := cursor + gap * chunk
    let zeroFill ← minus? offset start
    return ⟨sequence + gap, start, 0, zeroFill, shortTail? lengths chunk, sequence, sequence + gap⟩

/-- Behind an offset's last whole chunk there is the rest of it. -/
theorem start_le (chunk : Nat) {cursor : Nat} (h : cursor ≤ offset) :
    cursor + (offset - cursor) / chunk * chunk ≤ offset := by
  have := Nat.div_mul_le_self (offset - cursor) chunk
  omega

theorem makeChecked?_eq (offset : Nat) (lengths : List Nat) (chunk : Nat) :
    makeChecked? offset lengths chunk = some (make offset lengths chunk) := by
  rcases locate_cases offset lengths chunk with ⟨i, length, hlocate, -, hle, -⟩ | ⟨hlocate, hle⟩
  · have hkept : min (offset - startOf lengths chunk i) length ≤ offset - startOf lengths chunk i :=
      Nat.min_le_left _ _
    rw [makeChecked?, make, hlocate]
    dsimp only
    rw [minus?_of_le hle, Option.bind_eq_bind, Option.bind_some, minus?_of_le hkept]
    rfl
  · rw [makeChecked?, make, hlocate]
    dsimp only
    rw [minus?_of_le hle, Option.bind_eq_bind, Option.bind_some, minus?_of_le (start_le chunk hle)]
    rfl

/-! ## What a plan says -/

theorem shortTail?_eq_some_iff {tail : TailCompletion} : shortTail? lengths chunk = some tail ↔
    tail.sequence = lengths.length ∧ lengths.getLast? = some tail.length ∧ tail.length < chunk := by
  obtain ⟨sequence, length⟩ := tail
  unfold shortTail?
  cases lengths.getLast? with
  | none => simp
  | some last =>
    dsimp only
    split
    · next hshort =>
      simp only [Option.some.injEq, TailCompletion.mk.injEq]
      constructor
      · rintro ⟨rfl, rfl⟩
        exact ⟨rfl, rfl, hshort⟩
      · rintro ⟨rfl, rfl, -⟩
        exact ⟨rfl, rfl⟩
    · next hwhole =>
      simp only [reduceCtorEq, Option.some.injEq, false_iff]
      rintro ⟨-, rfl, hshort⟩
      exact hwhole hshort


/-- The plan for a write at an offset fits the segments that there are. -/
structure Fits (plan : WritePlan) (offset : Nat) (lengths : List Nat) (chunk : Nat) : Prop where
  /-- The segment that the write begins in begins where the spans of those before it end. -/
  cursor_eq : plan.cursor = startOf lengths chunk (plan.sequence - 1)
  cursor_le : plan.cursor ≤ offset
  /-- Between there and the offset are the bytes that are kept, and zeros. -/
  leading_eq : plan.retained + plan.zeroFill = offset - plan.cursor
  /-- No more bytes are kept than the segment has. -/
  retained_le : plan.retained ≤ lengths.getD (plan.sequence - 1) 0
  sequence_pos : 0 < plan.sequence
  /-- The segments between those that there are and the one that the write begins in are zeros. -/
  mem_zeroSegments : ∀ s, s ∈ plan.zeroSegments ↔ lengths.length < s ∧ s < plan.sequence

theorem fits_make (offset : Nat) (lengths : List Nat) (chunk : Nat) :
    (make offset lengths chunk).Fits offset lengths chunk := by
  rcases locate_cases offset lengths chunk with ⟨i, length, hlocate, hlength, hle, -⟩ | ⟨hlocate, hle⟩
  · have hold : lengths.getD i 0 = length := by
      rw [List.getD_eq_getElem?_getD, hlength, Option.getD_some]
    have hi : i < lengths.length := (List.getElem?_eq_some_iff.1 hlength).1
    rw [make, hlocate]
    refine ⟨rfl, hle, ?_, ?_, Nat.succ_pos i, fun s => ?_⟩
    · exact Nat.add_sub_of_le (Nat.min_le_left _ _)
    · rw [Nat.add_sub_cancel, hold]
      exact Nat.min_le_right _ _
    · simp only [zeroSegments, Nat.sub_self, List.range'_zero, List.not_mem_nil, false_iff]
      omega
  · have hstart := start_le chunk hle
    rw [make, hlocate]
    refine ⟨?_, hstart, Nat.zero_add _, Nat.zero_le _, ?_, fun s => ?_⟩
    · dsimp only
      rw [Nat.add_right_comm, Nat.add_sub_cancel, startOf_add_length]
    · exact Nat.add_pos_left (Nat.succ_pos _) _
    · simp only [zeroSegments, List.mem_range'_1]
      omega

/-! ## Segments of one size -/

/-- All segments are whole chunks, but the last may be shorter, if it is not empty. -/
structure WholeButLast (lengths : List Nat) (chunk : Nat) : Prop where
  whole : ∀ i, i + 1 < lengths.length → lengths[i]? = some chunk
  last : ∀ length, lengths.getLast? = some length → 1 ≤ length ∧ length ≤ chunk

namespace WholeButLast

theorem length_le (h : WholeButLast lengths chunk) {length : Nat} (hi : lengths[i]? = some length) :
    length ≤ chunk := by
  have hlt := (List.getElem?_eq_some_iff.1 hi).1
  by_cases hnext : i + 1 < lengths.length
  · rw [h.whole i hnext] at hi
    exact Nat.le_of_eq (Option.some.inj hi).symm
  · have hend : i = lengths.length - 1 := by omega
    rw [hend, ← List.getLast?_eq_getElem?] at hi
    exact (h.last length hi).2

/-- Every segment takes up a chunk. -/
theorem span_eq (h : WholeButLast lengths chunk) (i : Nat) : span lengths chunk i = chunk := by
  unfold span
  split
  · next hlt => rw [List.getD_eq_getElem?_getD, h.whole i hlt, Option.getD_some]
  split
  · next hlast =>
    have hsome : lengths[i]? = some (lengths.getD i 0) := by
      rw [List.getD_eq_getElem?_getD, List.getElem?_eq_getElem (by omega), Option.getD_some]
    exact Nat.max_eq_right (h.length_le hsome)
  · rfl

theorem startOf_eq (h : WholeButLast lengths chunk) (i : Nat) : startOf lengths chunk i = i * chunk := by
  induction i with
  | zero => rw [startOf_zero, Nat.zero_mul]
  | succ i ih => rw [startOf_succ, ih, h.span_eq, Nat.succ_mul]

/-- The offset lies in the segment of its chunk, or past all of them. -/
theorem locate_eq (h : WholeButLast lengths chunk) (hchunk : 0 < chunk) (offset : Nat) :
    (∃ length, locate offset chunk 1 0 lengths
        = .inside (offset / chunk + 1) (offset / chunk * chunk) length ∧
        lengths[offset / chunk]? = some length) ∨
      locate offset chunk 1 0 lengths = .beyond (lengths.length + 1) (lengths.length * chunk) ∧
        lengths.length ≤ offset / chunk := by
  rcases locate_cases offset lengths chunk with ⟨i, length, hlocate, hlength, hle, hlt⟩ | ⟨hlocate, hle⟩
  · rw [h.startOf_eq] at hle hlt hlocate
    have hi : offset / chunk = i :=
      Nat.le_antisymm (Nat.lt_succ_iff.1 ((Nat.div_lt_iff_lt_mul hchunk).2 hlt))
        ((Nat.le_div_iff_mul_le hchunk).2 hle)
    exact .inl ⟨length, hi ▸ hlocate, hi ▸ hlength⟩
  · rw [h.startOf_eq] at hle hlocate
    exact .inr ⟨hlocate, (Nat.le_div_iff_mul_le hchunk).2 hle⟩

theorem sequence_make (h : WholeButLast lengths chunk) (hchunk : 0 < chunk) :
    (make offset lengths chunk).sequence = offset / chunk + 1 := by
  rcases h.locate_eq hchunk offset with ⟨length, hlocate, -⟩ | ⟨hlocate, hcount⟩
  · rw [make, hlocate]
  · rw [make, hlocate]
    dsimp only
    rw [Nat.mul_comm, Nat.sub_mul_div]
    omega

theorem retained_make (h : WholeButLast lengths chunk) (hchunk : 0 < chunk) :
    (make offset lengths chunk).retained
      = min (offset % chunk) (lengths.getD (offset / chunk) 0) := by
  have hmod := Nat.div_add_mod' offset chunk
  rcases h.locate_eq hchunk offset with ⟨length, hlocate, hlength⟩ | ⟨hlocate, hcount⟩
  · have hrest : offset - offset / chunk * chunk = offset % chunk := by omega
    rw [make, hlocate, List.getD_eq_getElem?_getD, hlength, Option.getD_some]
    dsimp only
    rw [hrest]
  · rw [make, hlocate, List.getD_eq_getElem?_getD, List.getElem?_eq_none hcount, Option.getD_none,
      Nat.min_zero]

/-- A last segment is filled up if it is short and the offset lies past the chunk it begins. -/
theorem completeTail_make (h : WholeButLast lengths chunk) (hchunk : 0 < chunk) (tail : TailCompletion) :
    (make offset lengths chunk).completeTail = some tail ↔ lengths.length * chunk ≤ offset ∧
      tail.sequence = lengths.length ∧ lengths.getLast? = some tail.length ∧ tail.length < chunk := by
  rw [← Nat.le_div_iff_mul_le hchunk]
  rcases h.locate_eq hchunk offset with ⟨length, hlocate, hlength⟩ | ⟨hlocate, hcount⟩
  · have hlt := (List.getElem?_eq_some_iff.1 hlength).1
    rw [make, hlocate]
    constructor
    · intro hsome
      exact absurd hsome (Option.some_ne_none tail).symm
    · intro hbeyond
      exact absurd hbeyond.1 (Nat.not_le.2 hlt)
  · rw [make, hlocate, and_iff_right hcount]
    exact shortTail?_eq_some_iff

end WholeButLast

/-- The plan as it is where all segments but the last are whole chunks. -/
structure Divides (plan : WritePlan) (offset : Nat) (lengths : List Nat) (chunk : Nat) : Prop where
  sequence_eq : plan.sequence = offset / chunk + 1
  cursor_eq : plan.cursor = (plan.sequence - 1) * chunk
  retained_eq : plan.retained = min (offset % chunk) (lengths.getD (plan.sequence - 1) 0)
  zeroFill_eq : plan.zeroFill = offset % chunk - plan.retained
  completeTail_iff : ∀ tail, plan.completeTail = some tail ↔ lengths.length * chunk ≤ offset ∧
    tail.sequence = lengths.length ∧ lengths.getLast? = some tail.length ∧ tail.length < chunk
  mem_zeroSegments : ∀ s, s ∈ plan.zeroSegments ↔ lengths.length < s ∧ s < plan.sequence

/-- Whatever the lengths of the segments, the plan is made without taking more from a number than it is, and
fits them. If all but the last are whole chunks, it is given by division. -/
theorem make_spans (offset : Nat) (lengths : List Nat) (hchunk : 0 < chunk) :
    makeChecked? offset lengths chunk = some (make offset lengths chunk) ∧
      (make offset lengths chunk).Fits offset lengths chunk ∧
      (WholeButLast lengths chunk → (make offset lengths chunk).Divides offset lengths chunk) := by
  have hfits := fits_make offset lengths chunk
  refine ⟨makeChecked?_eq offset lengths chunk, hfits, fun h => ?_⟩
  have hsequence : (make offset lengths chunk).sequence - 1 = offset / chunk := by
    rw [h.sequence_make hchunk, Nat.add_sub_cancel]
  have hcursor : (make offset lengths chunk).cursor = offset / chunk * chunk := by
    rw [hfits.cursor_eq, hsequence, h.startOf_eq]
  have hmod := Nat.div_add_mod' offset chunk
  have hleading := hfits.leading_eq
  refine ⟨h.sequence_make hchunk, by rw [hcursor, hsequence], ?_, by omega, h.completeTail_make hchunk,
    hfits.mem_zeroSegments⟩
  rw [h.retained_make hchunk, hsequence]

/-- Five bytes and two, in chunks of five, and a write at 23: the last segment is filled up, two segments of
zeros follow, and three zeros. -/
theorem make_spans_behind_short_tail : WholeButLast [5, 2] 5 ∧
    (make 23 [5, 2] 5).Divides 23 [5, 2] 5 ∧
    make 23 [5, 2] 5 = ⟨5, 20, 0, 3, some ⟨2, 2⟩, 3, 5⟩ := by
  have hwhole : WholeButLast [5, 2] 5 := by
    refine ⟨?_, ?_⟩
    · intro i hi
      obtain rfl : i = 0 := Nat.lt_one_iff.1 (Nat.lt_of_succ_lt_succ hi)
      rfl
    · intro length hlength
      obtain rfl := Option.some.inj hlength
      decide
  exact ⟨hwhole, (make_spans 23 [5, 2] (by decide)).2.2 hwhole, by decide⟩

end SegmentedFiles.WritePlan
