import SegmentedFiles.Proofs.Store.Lookup

/-! # Stores from which objects are gone

`MemoryStore.Without` says which of the objects of a store are gone from another, and that nothing else
has changed. A bulk delete that does not fail takes away all of its targets, and one that fails takes
away none (`answer_bulkDelete`). -/

namespace SegmentedFiles.MemoryStore

variable {m t u : MemoryStore} {c n : String} {o : StoredObject} {gone gone' : String → String → Prop}
  {targets : List ObjectTarget}

/-- From `m` to `t` nothing is changed, but the objects of `gone` are not there any more. -/
structure Without (gone : String → String → Prop) (m t : MemoryStore) : Prop where
  containers : ∀ container ∈ m.containers, container ∈ t.containers
  putBudget : t.putBudget = m.putBudget
  bulkFault : t.bulkFault = m.bulkFault
  object : ∀ c n o, t.object? c n = some o ↔ m.object? c n = some o ∧ ¬gone c n

namespace Without

theorem refl (h : ∀ c n, gone c n → m.object? c n = none) : Without gone m m := by
  refine ⟨fun _ hc => hc, rfl, rfl, fun c n o => ⟨fun ho => ⟨ho, fun hgone => ?_⟩, And.left⟩⟩
  rw [h c n hgone] at ho
  cases ho

theorem nothing (m : MemoryStore) : Without (fun _ _ => False) m m :=
  refl fun _ _ => False.elim

theorem trans (h : Without gone m t) (h' : Without gone' t u) :
    Without (fun c n => gone c n ∨ gone' c n) m u := by
  refine ⟨fun c hc => h'.containers c (h.containers c hc), h'.putBudget.trans h.putBudget,
    h'.bulkFault.trans h.bulkFault, fun c n o => ?_⟩
  rw [h'.object, h.object, not_or, and_assoc]

/-- What was not there before does not matter. -/
theorem congr (h : Without gone m t)
    (hiff : ∀ c n o, m.object? c n = some o → (gone c n ↔ gone' c n)) : Without gone' m t := by
  refine ⟨h.containers, h.putBudget, h.bulkFault, fun c n o => ?_⟩
  rw [h.object]
  exact and_congr_right fun ho => not_congr (hiff c n o ho)

theorem vacate (m : MemoryStore) (c n : String) :
    Without (fun c' n' => c' = c ∧ n' = n) m (m.vacate c n) := by
  refine ⟨fun _ => mem_containers_vacate, rfl, rfl, fun c' n' o => ?_⟩
  rw [object?_vacate]
  split
  · next h => simp [h]
  · next h => simp [h]

/-- Targets are gone, and then those of a batch. -/
theorem append {done batch : List ObjectTarget} (h : Without (fun c n => ⟨c, n⟩ ∈ done) m t)
    (h' : Without (fun c n => ⟨c, n⟩ ∈ batch) t u) :
    Without (fun c n => ⟨c, n⟩ ∈ done ++ batch) m u := by
  refine (h.trans h').congr ?_
  intro c n _ _
  rw [List.mem_append]

theorem none (h : Without gone m t) (hgone : gone c n) : t.object? c n = none := by
  cases ho : t.object? c n with
  | none => rfl
  | some o => exact absurd hgone ((h.object c n o).1 ho).2

theorem same (h : Without gone m t) (hkept : ¬gone c n) : t.object? c n = m.object? c n := by
  refine Option.ext fun o => ?_
  rw [h.object]
  exact and_iff_left hkept

end Without

/-- From `m` to `t` nothing is changed, but some of the objects at `places` are not there any more. -/
def Thinned (places : String → String → Prop) (m t : MemoryStore) : Prop :=
  ∃ gone, (∀ c n, gone c n → places c n) ∧ Without gone m t

namespace Thinned

variable {places places' : String → String → Prop}

theorem refl (places : String → String → Prop) (m : MemoryStore) : Thinned places m m :=
  ⟨_, fun _ _ => False.elim, .nothing m⟩

theorem of_without (h : Without gone m t) : Thinned gone m t :=
  ⟨gone, fun _ _ h => h, h⟩

theorem trans (h : Thinned places m t) (h' : Thinned places t u) : Thinned places m u := by
  obtain ⟨gone, hgone, hwithout⟩ := h
  obtain ⟨gone', hgone', hwithout'⟩ := h'
  exact ⟨_, fun c n hin => hin.elim (hgone c n) (hgone' c n), hwithout.trans hwithout'⟩

/-- What was not there before does not matter. -/
theorem congr (h : Thinned places m t)
    (hsub : ∀ c n o, m.object? c n = some o → places c n → places' c n) : Thinned places' m t := by
  obtain ⟨gone, hgone, hwithout⟩ := h
  refine ⟨fun c n => gone c n ∧ ∃ o, m.object? c n = some o, fun c n hin => ?_,
    hwithout.congr fun c n o ho => ⟨fun hin => ⟨hin, o, ho⟩, And.left⟩⟩
  obtain ⟨hin, o, ho⟩ := hin
  exact hsub c n o ho (hgone c n hin)

theorem mono (h : Thinned places m t) (hsub : ∀ c n, places c n → places' c n) : Thinned places' m t :=
  h.congr fun c n _ _ => hsub c n

theorem same (h : Thinned places m t) (hnot : ¬places c n) : t.object? c n = m.object? c n := by
  obtain ⟨gone, hgone, hwithout⟩ := h
  exact hwithout.same fun hin => hnot (hgone c n hin)

theorem object (h : Thinned places m t) (ho : t.object? c n = some o) : m.object? c n = some o := by
  obtain ⟨gone, -, hwithout⟩ := h
  exact ((hwithout.object c n o).1 ho).1

theorem none (h : Thinned places m t) (hnone : m.object? c n = none) : t.object? c n = none := by
  refine Option.eq_none_iff_forall_ne_some.2 fun o ho => ?_
  rw [h.object ho] at hnone
  cases hnone

end Thinned

/-! ## Bulk deletes -/

/-- Each target is gone; there is no target of which the deletion fails. -/
theorem eraseAll_without (m : MemoryStore) (targets : List ObjectTarget)
    (summary : BulkDeleteSummary) :
    (m.eraseAll targets summary).1.errors = summary.errors ∧
      Without (fun c n => ⟨c, n⟩ ∈ targets) m (m.eraseAll targets summary).2 := by
  induction targets generalizing m summary with
  | nil => exact ⟨rfl, .refl fun _ _ hmem => absurd hmem (by simp)⟩
  | cons target rest ih =>
    have hsplit : ∀ c n, (c = target.container ∧ n = target.name) ∨ ⟨c, n⟩ ∈ rest ↔
        (⟨c, n⟩ : ObjectTarget) ∈ target :: rest := by
      intro c n
      rw [List.mem_cons, ObjectTarget.mk.injEq]
    unfold eraseAll
    cases ho : m.object? target.container target.name with
    | some o =>
      rw [erase?_of_some ho]
      obtain ⟨herrors, hrest⟩ := ih (m.vacate target.container target.name)
        { summary with deleted := summary.deleted + 1 }
      exact ⟨herrors, ((Without.vacate m _ _).trans hrest).congr fun c n _ _ => hsplit c n⟩
    | none =>
      rw [erase?_of_none ho]
      obtain ⟨herrors, hrest⟩ := ih m { summary with notFound := summary.notFound + 1 }
      refine ⟨herrors, hrest.congr fun c n o hobject => ?_⟩
      rw [← hsplit, or_iff_right]
      intro h
      obtain ⟨rfl, rfl⟩ := h
      rw [ho] at hobject
      cases hobject

/-- A bulk delete to which no failure is injected deletes all of its targets, or fails as a whole where
the store has no bulk deletes. -/
theorem answer_bulkDelete (hm : m.bulkFault = none) (targets : List ObjectTarget) :
    (m.bulkDelete = false ∧ ∃ e, answer (.bulkDelete targets) m = (.error e, m)) ∨
      m.bulkDelete = true ∧ ∃ summary t, answer (.bulkDelete targets) m = (.ok summary, t) ∧
        summary.errors = [] ∧ Without (fun c n => ⟨c, n⟩ ∈ targets) m t := by
  simp only [answer, answerBulk]
  split
  · next hbulk =>
    split
    · next h => exact absurd (hm.symm.trans h) (by simp)
    · next h => exact absurd (hm.symm.trans h) (by simp)
    · obtain ⟨herrors, ht⟩ := eraseAll_without
        { m with bulkDeleteCalls := m.bulkDeleteCalls + 1 } targets BulkDeleteSummary.empty
      exact .inr ⟨hbulk, _, _, rfl, herrors, ht.containers, ht.putBudget, ht.bulkFault, ht.object⟩
  · next hbulk => exact .inl ⟨by simpa using hbulk, _, rfl⟩

end SegmentedFiles.MemoryStore
