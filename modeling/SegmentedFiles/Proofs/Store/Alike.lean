import SegmentedFiles.Proofs.Store.Without

/-! # Stores that differ in their objects only

`MemoryStore.Alike` holds of two stores with the same containers and the same settings. If the same is
found in both under each name, they are the same store but for the number of bulk deletes asked for
(`Alike.eq_of_object?`). -/

namespace SegmentedFiles.MemoryStore

variable {m t u : MemoryStore} {c n : String}

/-- From `m` to `t` containers are neither made nor lost, and the settings are as they were. -/
structure Alike (m t : MemoryStore) : Prop where
  containers : ∀ c, c ∈ t.containers ↔ c ∈ m.containers
  bulkDelete : t.bulkDelete = m.bulkDelete
  putBudget : t.putBudget = m.putBudget
  bulkFault : t.bulkFault = m.bulkFault
  now : t.now = m.now

namespace Alike

theorem refl (m : MemoryStore) : Alike m m := ⟨fun _ => Iff.rfl, rfl, rfl, rfl, rfl⟩

theorem symm (h : Alike m t) : Alike t m :=
  ⟨fun c => (h.containers c).symm, h.bulkDelete.symm, h.putBudget.symm, h.bulkFault.symm, h.now.symm⟩

theorem trans (h : Alike m t) (h' : Alike t u) : Alike m u :=
  ⟨fun c => (h'.containers c).trans (h.containers c), h'.bulkDelete.trans h.bulkDelete,
    h'.putBudget.trans h.putBudget, h'.bulkFault.trans h.bulkFault, h'.now.trans h.now⟩

theorem vacate (hc : c ∈ m.containers) : Alike m (m.vacate c n) :=
  ⟨fun _ => mem_insert_of_mem hc, rfl, rfl, rfl, rfl⟩

theorem place {o : StoredObject} (hc : c ∈ m.containers) : Alike m (m.place c n o) :=
  ⟨fun _ => mem_insert_of_mem hc, rfl, rfl, rfl, rfl⟩

theorem bulkDeleteCalls (m : MemoryStore) (count : Nat) :
    Alike m { m with bulkDeleteCalls := count } :=
  ⟨fun _ => Iff.rfl, rfl, rfl, rfl, rfl⟩

/-- What there is in a store is known by what is found in it. -/
theorem eq_of_object? (h : Alike m t) (hobject : ∀ c n, t.object? c n = m.object? c n) :
    t = { m with bulkDeleteCalls := t.bulkDeleteCalls } := by
  have hcontainers : t.containers = m.containers := by
    refine Std.ExtTreeMap.ext_getElem? fun c => ?_
    by_cases hc : c ∈ m.containers
    · rw [getElem?_containers hc, getElem?_containers ((h.containers c).2 hc), Option.some.injEq]
      exact Std.ExtTreeMap.ext_getElem? (hobject c)
    · rw [Std.ExtTreeMap.getElem?_eq_none hc,
        Std.ExtTreeMap.getElem?_eq_none fun hmem => hc ((h.containers c).1 hmem)]
  obtain ⟨containers, bulkDelete, putBudget, bulkFault, calls, now⟩ := t
  obtain ⟨-, rfl, rfl, rfl, rfl⟩ := h
  cases hcontainers
  rfl

end Alike

theorem alike_delete (m : MemoryStore) (c n : String) : Alike m (answer (.delete c n) m).2 := by
  cases ho : m.object? c n with
  | some o =>
    rw [answer_delete_of_some ho]
    exact .vacate (mem_containers_of_object? ho)
  | none =>
    rw [answer_delete_of_none ho]
    exact .refl m

theorem alike_eraseAll (m : MemoryStore) (targets : List ObjectTarget) (summary : BulkDeleteSummary) :
    Alike m (m.eraseAll targets summary).2 := by
  induction targets generalizing m summary with
  | nil => exact .refl m
  | cons target rest ih =>
    unfold eraseAll
    cases ho : m.object? target.container target.name with
    | some o =>
      rw [erase?_of_some ho]
      exact (Alike.vacate (mem_containers_of_object? ho)).trans (ih _ _)
    | none =>
      rw [erase?_of_none ho]
      exact ih _ _

theorem alike_bulkDelete (m : MemoryStore) (targets : List ObjectTarget) :
    Alike m (answer (.bulkDelete targets) m).2 := by
  have hcalls := Alike.bulkDeleteCalls m (m.bulkDeleteCalls + 1)
  simp only [answer, answerBulk]
  split
  · split
    · exact hcalls
    · exact hcalls
    · exact hcalls.trans (alike_eraseAll _ targets _)
  · exact .refl m

end SegmentedFiles.MemoryStore
