import SegmentedFiles.Proofs.Text.Decimal
import SegmentedFiles.Segment.Name

/-! # Names of segments

The names of an object's segments come in the order of their numbers as long as the numbers fit into
the width of the names (`name_lt_name_iff`). The names of different objects, or numbers, differ
(`name_inj`), and a name that is read as that of a segment is the name with the number that was read
(`sequence?_eq_some_iff`). A segment's name starts as those of another object's segments only if its object
lies below that one (`startsWith_name_iff`, `startsWith_start_iff`), and even then that one's manifest does not
refer to it (`eq_of_belongsTo_name`). -/

namespace SegmentedFiles.Segment

/-- The greatest number that a segment's name has room for. -/
def maxSequence : Nat := 9999999999999999

theorem lt_bound_iff {s : Nat} : s < Decimal.bound width ↔ s ≤ maxSequence :=
  Nat.lt_succ_iff

variable {object other start text : String} {s t : Nat}

theorem toList_start : (Segment.start object).toList = object.toList ++ ['/'] := by
  simp [Segment.start]

theorem toList_name :
    (name object s).toList = object.toList ++ '/' :: Decimal.digits width s := by
  simp [name, Decimal.toList_padded]

theorem length_digits_of_le (h : s ≤ maxSequence) : (Decimal.digits width s).length = width :=
  Decimal.length_digits (by decide) (lt_bound_iff.2 h)

theorem digits_inj (h : Decimal.digits width s = Decimal.digits width t) : s = t := by
  rw [← Decimal.value_digits width s, h, Decimal.value_digits]

theorem not_mem_digits (s : Nat) : '/' ∉ Decimal.digits width s := by
  intro hmem
  have := List.all_eq_true.1 (Decimal.all_isDigit_digits width s) _ hmem
  exact absurd this (by decide)

/-- A slash of a text is the last one, or what comes before the last one starts with it and all before it. -/
theorem append_slash_cases {xs ys cs ds : List Char} (hds : '/' ∉ ds)
    (h : xs ++ '/' :: cs = ys ++ '/' :: ds) : xs = ys ∨ ∃ inner, ys = xs ++ '/' :: inner := by
  rw [List.append_eq_append_iff] at h
  rcases h with ⟨inner, hys, hcs⟩ | ⟨behind, hxs, hds'⟩
  · cases inner with
    | nil => exact .inl (by rw [hys, List.append_nil])
    | cons c inner =>
      rw [List.cons_append, List.cons.injEq] at hcs
      exact .inr ⟨inner, by rw [hys, ← hcs.1]⟩
  · cases behind with
    | nil => exact .inl (by rw [hxs, List.append_nil])
    | cons c behind =>
      rw [List.cons_append, List.cons.injEq] at hds'
      exact absurd (by rw [hds'.2]; simp) hds

/-- What stands in front of the last slash, and what behind it, is told apart. -/
theorem append_slash_inj {xs ys cs ds : List Char} (hcs : '/' ∉ cs) (hds : '/' ∉ ds)
    (h : xs ++ '/' :: cs = ys ++ '/' :: ds) : xs = ys ∧ cs = ds := by
  rcases append_slash_cases hds h with rfl | ⟨inner, rfl⟩
  · rw [List.append_cancel_left_eq, List.cons.injEq] at h
    exact ⟨rfl, h.2⟩
  · rw [List.append_assoc, List.append_cancel_left_eq, List.cons_append, List.cons.injEq] at h
    exact absurd (by rw [h.2]; simp) hcs

/-- A segment's name tells the object and the number. -/
theorem name_inj (h : name object s = name other t) : object = other ∧ s = t := by
  rw [← String.toList_inj, toList_name, toList_name] at h
  obtain ⟨hobject, hdigits⟩ := append_slash_inj (not_mem_digits s) (not_mem_digits t) h
  exact ⟨String.toList_inj.1 hobject, digits_inj hdigits⟩

theorem startsWith_name : Text.startsWith (name object s) (Segment.start object) = true := by
  rw [Text.startsWith_iff, toList_start, toList_name]
  exact ⟨Decimal.digits width s, by simp⟩

/-- The segments of one object start as those of another if it is that one, or its name is below. -/
theorem startsWith_start_iff : Text.startsWith (Segment.start other) (Segment.start object) = true ↔
    object = other ∨ Text.startsWith other (Segment.start object) = true := by
  rw [Text.startsWith_iff, Text.startsWith_iff, toList_start, toList_start, List.prefix_concat_iff,
    List.append_cancel_right_eq, String.toList_inj]

/-- How a segment's name starts does not depend on its number, in which there is no slash. -/
theorem startsWith_name_iff : Text.startsWith (name other s) (Segment.start object) = true ↔
    Text.startsWith (Segment.start other) (Segment.start object) = true := by
  rw [startsWith_start_iff, Text.startsWith_iff, Text.startsWith_iff, toList_start, toList_name]
  constructor
  · intro h
    obtain ⟨rest, hrest⟩ := h
    rw [List.append_assoc, List.singleton_append] at hrest
    rcases append_slash_cases (not_mem_digits s) hrest with hsame | ⟨inner, hinner⟩
    · exact .inl (String.toList_inj.1 hsame)
    · exact .inr ⟨inner, by rw [hinner, List.append_assoc]; rfl⟩
  · rintro (rfl | hbelow)
    · exact ⟨Decimal.digits width s, by rw [List.append_assoc]; rfl⟩
    · exact hbelow.trans (List.prefix_append _ _)

/-- A name is read as that of a segment if the number that is read stands behind the start. -/
theorem sequence?_eq_some_iff_append :
    sequence? start text = some s ↔ text = start ++ Decimal.padded width s ∧ s ≤ maxSequence := by
  constructor
  · intro h
    unfold sequence? at h
    split at h
    · next rest hrest =>
      rw [Text.after?_eq_some_iff] at hrest
      dsimp only at h
      split at h
      · next hdigits =>
        obtain ⟨hlength, hall⟩ := hdigits
        obtain rfl := Option.some.inj h
        have hvalue := Decimal.value_lt hall
        have hform := Decimal.digits_value (by rw [hlength]; decide) hall
        rw [hlength] at hvalue hform
        refine ⟨?_, lt_bound_iff.1 hvalue⟩
        rw [hrest, Decimal.padded, hform, String.ofList_toList]
      · simp at h
    · simp at h
  · intro h
    obtain ⟨rfl, hs⟩ := h
    unfold sequence?
    rw [Text.after?_eq_some_iff.2 rfl]
    simp only [Decimal.toList_padded, length_digits_of_le hs, Decimal.all_isDigit_digits,
      Decimal.value_digits, and_self, if_true]

/-- A name is read as that of a segment if it is the name with the number that is read. -/
theorem sequence?_eq_some_iff :
    sequence? (Segment.start object) text = some s ↔ text = name object s ∧ s ≤ maxSequence :=
  sequence?_eq_some_iff_append

/-- Digits have no slashes in front. -/
theorem dropWhile_digits (s : Nat) :
    (Decimal.digits width s).dropWhile (· == '/') = Decimal.digits width s := by
  have hnot := not_mem_digits s
  cases hdigits : Decimal.digits width s with
  | nil => rfl
  | cons c cs =>
    rw [hdigits, List.mem_cons, not_or] at hnot
    exact List.dropWhile_cons_of_neg (by simpa using Ne.symm hnot.1)

/-- A manifest refers to what has a number behind the start. -/
theorem belongsTo_append {container : String} :
    belongsTo ⟨container, start⟩ (start ++ Decimal.padded width s) = true := by
  have hafter : Text.after? start (start ++ Decimal.padded width s) = some (Decimal.padded width s) :=
    Text.after?_eq_some_iff.2 rfl
  have hne : (Decimal.digits width s).isEmpty = false := by
    rw [List.isEmpty_eq_false_iff, ← List.length_pos_iff]
    exact Decimal.length_digits_pos width s
  simp only [belongsTo, hafter, Text.trimStart, Decimal.toList_padded, String.toList_ofList,
    dropWhile_digits, hne, Decimal.all_isDigit_digits, Bool.not_false, Bool.and_self]

/-- The segments of an object are among those that its manifest refers to. -/
theorem belongsTo_name {container : String} :
    belongsTo ⟨container, Segment.start object⟩ (name object s) = true :=
  belongsTo_append

/-- What is read as the name of a segment is one that a manifest with the same start refers to. -/
theorem belongsTo_of_sequence? {container : String} (h : sequence? start text = some s) :
    belongsTo ⟨container, start⟩ text = true := by
  rw [(sequence?_eq_some_iff_append.1 h).1]
  exact belongsTo_append

/-- What a manifest refers to starts as its segments do. -/
theorem startsWith_of_belongsTo {manifest : ManifestRef} (h : belongsTo manifest text = true) :
    Text.startsWith text manifest.start = true := by
  unfold belongsTo at h
  split at h
  · next rest hrest =>
    rw [Text.startsWith_iff, Text.after?_eq_some_iff.1 hrest, String.toList_append]
    exact List.prefix_append _ _
  · cases h

/-- What a manifest refers to is named like its object, with slashes and digits behind. -/
theorem exists_of_belongsTo {container : String}
    (h : belongsTo ⟨container, Segment.start object⟩ text = true) :
    ∃ k ds, '/' ∉ ds ∧ text.toList = (object.toList ++ List.replicate k '/') ++ '/' :: ds := by
  unfold belongsTo at h
  split at h
  · next rest hrest =>
    rw [Text.after?_eq_some_iff] at hrest
    simp only [Bool.and_eq_true, Text.trimStart, String.toList_ofList] at h
    obtain ⟨-, hall⟩ := h
    refine ⟨(rest.toList.takeWhile (· == '/')).length, rest.toList.dropWhile (· == '/'), ?_, ?_⟩
    · intro hmem
      exact absurd (List.all_eq_true.1 hall _ hmem) (by decide)
    · have hslashes : rest.toList.takeWhile (· == '/')
          = List.replicate (rest.toList.takeWhile (· == '/')).length '/' := by
        rw [List.eq_replicate_iff]
        refine ⟨rfl, fun c hc => ?_⟩
        simpa using List.all_eq_true.1 List.all_takeWhile c hc
      have hcut : rest.toList = List.replicate (rest.toList.takeWhile (· == '/')).length '/'
          ++ rest.toList.dropWhile (· == '/') := by
        rw [← hslashes, List.takeWhile_append_dropWhile]
      have hswap : ∀ (k : Nat) (ds : List Char),
          '/' :: (List.replicate k '/' ++ ds) = List.replicate k '/' ++ '/' :: ds := by
        intro k ds
        rw [← List.cons_append, ← List.replicate_succ, List.replicate_succ', List.append_assoc]
        rfl
      rw [hrest, String.toList_append, toList_start, List.append_assoc, List.append_assoc, ← hswap,
        ← hcut]
      rfl
  · simp at h

theorem eq_of_eq_append_slashes {xs ys : List Char} {k : Nat} (hys : ys.getLast? ≠ some '/')
    (h : ys = xs ++ List.replicate k '/') : ys = xs := by
  cases k with
  | zero => rw [h, List.replicate_zero, List.append_nil]
  | succ k =>
    rw [h, List.replicate_succ', ← List.append_assoc, List.getLast?_concat] at hys
    exact absurd rfl hys

/-- Slashes at the end of a text start nothing that the text does not. -/
theorem eq_or_prefix_of_append_slashes {xs ys inner : List Char} {k : Nat}
    (hys : ys.getLast? ≠ some '/') (h : xs ++ List.replicate k '/' = ys ++ '/' :: inner) :
    ys = xs ∨ ys ++ ['/'] <+: xs := by
  induction k generalizing inner with
  | zero =>
    rw [List.replicate_zero, List.append_nil] at h
    exact .inr ⟨inner, by rw [h, List.append_assoc]; rfl⟩
  | succ k ih =>
    rw [List.replicate_succ', ← List.append_assoc] at h
    rcases List.eq_nil_or_concat inner with rfl | ⟨front, c, rfl⟩
    · obtain ⟨hxs, -⟩ := List.append_inj' h rfl
      exact .inl (eq_of_eq_append_slashes hys hxs.symm)
    · rw [List.concat_eq_append, ← List.cons_append, ← List.append_assoc] at h
      exact ih (List.append_inj' h rfl).1

/-- A manifest refers to no segments of other objects. -/
theorem eq_of_belongsTo_name {container : String} (hother : other.toList.getLast? ≠ some '/')
    (h : belongsTo ⟨container, Segment.start object⟩ (name other t) = true) : other = object := by
  obtain ⟨k, ds, hds, htext⟩ := exists_of_belongsTo h
  rw [toList_name] at htext
  obtain ⟨hobject, -⟩ := append_slash_inj (not_mem_digits t) hds htext
  exact String.toList_inj.1 (eq_of_eq_append_slashes hother hobject)

/-- What a manifest refers to starts as the segments of another object only if the object of the manifest
has a name below that one. -/
theorem startsWith_of_belongsTo_of_startsWith {container : String}
    (hother : other.toList.getLast? ≠ some '/')
    (h : belongsTo ⟨container, Segment.start object⟩ text = true)
    (hstart : Text.startsWith text (Segment.start other) = true) :
    other = object ∨ Text.startsWith object (Segment.start other) = true := by
  obtain ⟨k, ds, hds, htext⟩ := exists_of_belongsTo h
  rw [Text.startsWith_iff, toList_start] at hstart ⊢
  obtain ⟨rest, hrest⟩ := hstart
  rw [htext, List.append_assoc, List.singleton_append] at hrest
  rcases append_slash_cases hds hrest with hsame | ⟨inner, hinner⟩
  · exact .inl (String.toList_inj.1 (eq_of_eq_append_slashes hother hsame))
  · exact (eq_or_prefix_of_append_slashes hother hinner).imp_left String.toList_inj.1

/-- The names of an object's segments come in the order of their numbers. -/
theorem name_lt_name_iff (hs : s ≤ maxSequence) (ht : t ≤ maxSequence) :
    name object s < name object t ↔ s < t := by
  have hlt : ∀ {s t}, s ≤ maxSequence → t ≤ maxSequence → s < t → name object s < name object t := by
    intro s t hs ht h
    have hdigits : Decimal.digits width s < Decimal.digits width t := by
      rw [← Decimal.value_lt_value_iff (by rw [length_digits_of_le hs, length_digits_of_le ht])
        (Decimal.all_isDigit_digits _ _) (Decimal.all_isDigit_digits _ _), Decimal.value_digits,
        Decimal.value_digits]
      exact h
    rw [String.lt_iff, toList_name, toList_name]
    exact List.append_left_lt (List.cons_lt_cons_iff.2 (.inr ⟨rfl, hdigits⟩))
  refine ⟨fun h => ?_, hlt hs ht⟩
  rcases Nat.lt_trichotomy s t with hnumbers | rfl | hnumbers
  · exact hnumbers
  · exact absurd h (String.lt_irrefl _)
  · exact absurd h (String.lt_asymm (hlt ht hs hnumbers))

/-- The segments of an object are listed in the order of their numbers. -/
theorem compare_name (hs : s ≤ maxSequence) (ht : t ≤ maxSequence) (h : s < t) :
    compare (name object s) (name object t) = .lt :=
  if_pos ((name_lt_name_iff hs ht).2 h)

end SegmentedFiles.Segment
