import Mathlib.Data.List.Sort
import Std.Data.ExtTreeMap

/-! # Maps from containers to maps from names

Both stores keep their objects in a map of maps, in which a container that is not there counts as empty.
What is found under a name of a container after a change in it is the same for both. -/

namespace SegmentedFiles

variable {α : Type} {containers : Std.ExtTreeMap String (Std.ExtTreeMap String α)} {c c' n n' : String}
  {a : α}

theorem getElem?_getD_insert :
    ((containers.insert c ((containers.getD c ∅).insert n a)).getD c' ∅)[n']? =
      if c' = c ∧ n' = n then some a else (containers.getD c' ∅)[n']? := by
  rw [Std.ExtTreeMap.getD_insert]
  simp only [Std.LawfulEqCmp.compare_eq_iff_eq, eq_comm (a := c'), eq_comm (a := n')]
  by_cases hc : c = c'
  · subst hc
    simp only [if_true, Std.ExtTreeMap.getElem?_insert, Std.LawfulEqCmp.compare_eq_iff_eq, true_and]
  · rw [if_neg hc, if_neg fun h => hc h.1]

theorem getElem?_getD_erase :
    ((containers.insert c ((containers.getD c ∅).erase n)).getD c' ∅)[n']? =
      if c' = c ∧ n' = n then none else (containers.getD c' ∅)[n']? := by
  rw [Std.ExtTreeMap.getD_insert]
  simp only [Std.LawfulEqCmp.compare_eq_iff_eq, eq_comm (a := c'), eq_comm (a := n')]
  by_cases hc : c = c'
  · subst hc
    simp only [if_true, Std.ExtTreeMap.getElem?_erase, Std.LawfulEqCmp.compare_eq_iff_eq, true_and]
  · rw [if_neg hc, if_neg fun h => hc h.1]

/-- A new container is empty, as if it were not there. -/
theorem getD_insertIfNew : (containers.insertIfNew c ∅).getD c' ∅ = containers.getD c' ∅ := by
  rw [Std.ExtTreeMap.getD_insertIfNew]
  split
  · next h =>
    obtain ⟨h, hnot⟩ := h
    rw [Std.LawfulEqCmp.compare_eq_iff_eq] at h
    subst h
    rw [Std.ExtTreeMap.getD_eq_fallback hnot]
  · rfl

/-- A container in which something is found is there. -/
theorem mem_of_getElem?_getD (h : (containers.getD c ∅)[n]? = some a) : c ∈ containers := by
  by_contra hnot
  rw [Std.ExtTreeMap.getD_eq_fallback hnot] at h
  cases h

/-- Changing what is in a container that is there makes no new one. -/
theorem mem_insert_of_mem {names : Std.ExtTreeMap String α} (hc : c ∈ containers) :
    c' ∈ containers.insert c names ↔ c' ∈ containers := by
  rw [Std.ExtTreeMap.mem_insert, Std.LawfulEqCmp.compare_eq_iff_eq]
  exact ⟨fun h => h.elim (fun hsame => hsame ▸ hc) id, .inr⟩

/-- The values are listed in the order of the keys. -/
theorem values_eq_map_toList {β : Type} [Ord α] [Std.TransOrd α] (entries : Std.ExtTreeMap α β) :
    entries.values = entries.toList.map Prod.snd := by
  obtain ⟨inner⟩ := entries
  change inner.values = (Std.ExtDTreeMap.Const.toList inner).map Prod.snd
  induction inner using Std.ExtDTreeMap.inductionOn with
  | mk t =>
    change t.inner.values = (Std.DTreeMap.Internal.Impl.Const.toList t.inner).map Prod.snd
    rw [Std.DTreeMap.Internal.Impl.values_eq_map_snd,
      Std.DTreeMap.Internal.Impl.Const.toList_eq_toListModel_map, List.map_map]
    rfl

end SegmentedFiles
