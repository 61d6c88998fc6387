import Mathlib.Data.List.TakeDrop
import Mathlib.Data.List.TakeWhile
import SegmentedFiles.Text.Name

/-! # The pieces of a text

A text is known by its pieces between the `c`s (`splitAt_inj`), and what holds of every character of these
holds of every character of the text, if it does of `c` (`forall_mem_splitAt`). -/

namespace SegmentedFiles.Text

variable {c : Char} {s t : String}

theorem splitAt_of_not_mem (h : c ∉ s.toList) : splitAt c s = [s] := by
  rw [splitAt, List.splitOn_eq_singleton h, List.map_singleton, String.ofList_toList]

/-- The first piece goes up to the first `c`. -/
theorem splitAt_append_cons {cs rest : List Char} (h : c ∉ cs) :
    splitAt c (String.ofList (cs ++ c :: rest)) = String.ofList cs :: splitAt c (String.ofList rest) := by
  rw [splitAt, splitAt, String.toList_ofList, String.toList_ofList,
    List.splitOn_append_cons_self_of_not_mem h, List.map_cons]

theorem intercalate_splitAt (c : Char) (s : String) :
    [c].intercalate ((splitAt c s).map String.toList) = s.toList := by
  have hpieces : (splitAt c s).map String.toList = s.toList.splitOn c := by
    rw [splitAt, List.map_map]
    exact (List.map_congr_left fun piece _ => String.toList_ofList).trans (List.map_id _)
  rw [hpieces, List.intercalate_splitOn]

theorem splitAt_inj : splitAt c s = splitAt c t ↔ s = t := by
  refine ⟨fun h => ?_, congrArg _⟩
  rw [← String.toList_inj, ← intercalate_splitAt c s, h, intercalate_splitAt]

/-- The pieces of two texts with a `c` between them. -/
theorem splitAt_append (c : Char) (s t : String) :
    splitAt c (s ++ String.singleton c ++ t) = splitAt c s ++ splitAt c t := by
  rw [splitAt, String.toList_append, String.toList_append, String.toList_singleton, List.append_assoc,
    List.singleton_append, List.splitOn_append_cons_self, List.map_append]
  rfl

theorem splitAt_intercalate {pieces : List String} (hne : pieces ≠ [])
    (h : ∀ piece ∈ pieces, c ∉ piece.toList) :
    splitAt c ((String.singleton c).intercalate pieces) = pieces := by
  rw [splitAt, String.toList_intercalate, String.toList_singleton, List.splitOn_intercalate, List.map_map]
  · exact (List.map_congr_left fun piece _ => String.ofList_toList).trans (List.map_id _)
  · exact fun piece hpiece => by
      obtain ⟨piece, hmem, rfl⟩ := List.mem_map.1 hpiece
      exact h piece hmem
  · exact fun hnil => hne (List.map_eq_nil_iff.1 hnil)

theorem forall_mem_intercalate {p : Char → Prop} (hc : p c) (pieces : List (List Char)) :
    (∀ d ∈ [c].intercalate pieces, p d) ↔ ∀ piece ∈ pieces, ∀ d ∈ piece, p d := by
  induction pieces with
  | nil => simp
  | cons piece pieces ih =>
    cases pieces with
    | nil => simp
    | cons next pieces =>
      rw [List.intercalate_cons_cons, List.forall_mem_append, List.forall_mem_append, ih,
        List.forall_mem_singleton]
      have hcons := List.forall_mem_cons (p := fun piece => ∀ d ∈ piece, p d) (a := piece)
        (l := next :: pieces)
      exact (and_congr_left fun _ => and_iff_left hc).trans hcons.symm

theorem forall_mem_splitAt {p : Char → Prop} (hc : p c) :
    (∀ piece ∈ splitAt c s, ∀ d ∈ piece.toList, p d) ↔ ∀ d ∈ s.toList, p d := by
  rw [← intercalate_splitAt c s, forall_mem_intercalate hc, List.forall_mem_map]

/-- What two texts have in common at the front does not matter for their order. -/
theorem lt_of_append_lt {front cs ds : List Char} (h : front ++ cs < front ++ ds) : cs < ds := by
  induction front with
  | nil => exact h
  | cons c front ih =>
    rcases List.cons_lt_cons_iff.1 h with hlt | ⟨-, hlt⟩
    · exact absurd hlt (Char.lt_irrefl c)
    · exact ih hlt

theorem splitFirst?_eq_none_iff : splitFirst? c s = none ↔ c ∉ s.toList := by
  rw [splitFirst?, List.span_eq_takeWhile_dropWhile]
  constructor
  · intro h hc
    split at h
    · cases h
    · next hnone =>
      have hall := List.dropWhile_eq_nil_iff.1 (Prod.mk.inj hnone).2 c hc
      simp at hall
  · intro h
    have hnone : s.toList.dropWhile (· != c) = [] :=
      List.dropWhile_eq_nil_iff.2 fun d hd => bne_iff_ne.2 fun hsame => h (hsame ▸ hd)
    rw [hnone]

/-- A text is cut apart at the first `c`. -/
theorem splitFirst?_eq_some_iff {before behind : String} :
    splitFirst? c s = some (before, behind) ↔
      s.toList = before.toList ++ c :: behind.toList ∧ c ∉ before.toList := by
  rw [splitFirst?, List.span_eq_takeWhile_dropWhile]
  constructor
  · intro h
    split at h
    · next first d rest hspan =>
      obtain ⟨rfl, hrest⟩ := Prod.mk.inj hspan
      obtain ⟨rfl, rfl⟩ := Prod.mk.inj (Option.some.inj h)
      have hd : d = c := by
        have hhead := List.head?_dropWhile_not (· != c) s.toList
        rw [hrest] at hhead
        simpa using hhead
      subst hd
      rw [String.toList_ofList, String.toList_ofList, ← hrest, List.takeWhile_append_dropWhile]
      exact ⟨rfl, fun hmem => by simpa using List.mem_takeWhile_imp hmem⟩
    · cases h
  · intro h
    obtain ⟨htext, hbefore⟩ := h
    have hall : ∀ d ∈ before.toList, (d != c) = true := by
      intro d hd
      rw [bne_iff_ne]
      rintro rfl
      exact hbefore hd
    rw [htext, List.takeWhile_append_of_pos hall, List.dropWhile_append_of_pos hall]
    simp

/-- What comes before the last `c` of a text. -/
theorem beforeLast?_eq {before behind : List Char} (h : s.toList = before ++ c :: behind)
    (hbehind : c ∉ behind) : beforeLast? c s = some (String.ofList before) := by
  have hdrop : s.toList.reverse.dropWhile (· != c) = c :: before.reverse := by
    rw [h, List.reverse_append, List.reverse_cons, List.append_assoc, List.dropWhile_append_of_pos]
    · exact List.dropWhile_cons_of_neg (by simp)
    · intro d hd
      rw [bne_iff_ne]
      rintro rfl
      exact hbehind (List.mem_reverse.1 hd)
  unfold beforeLast?
  rw [hdrop]
  dsimp only
  rw [List.reverse_reverse]

end SegmentedFiles.Text
