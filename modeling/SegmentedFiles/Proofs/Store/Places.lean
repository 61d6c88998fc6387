import SegmentedFiles.Proofs.Store.Without
import SegmentedFiles.Proofs.Volume.Action

/-! # The places that a call changes

A call changes nothing but the places that it is about (`sameBut_answer`), whatever the store is: the
container may be missing, and the store may run out of writes. So an operation changes nothing but the
places of its calls, and which these are can mostly be seen from its text. -/

namespace SegmentedFiles

/-- The places that a call may change. -/
def StoreCall.Touches : StoreCall → String → String → Prop
  | .put container name _ _, c, n => c = container ∧ n = name
  | .copy _ target, c, n => c = target.container ∧ n = target.name
  | .delete container name, c, n => c = container ∧ n = name
  | .bulkDelete targets, c, n => ⟨c, n⟩ ∈ targets
  | _, _, _ => False

namespace MemoryStore

variable {m t u : MemoryStore} {c n : String} {o : StoredObject} {places places' : String → String → Prop}
  {fails : StoreCall → Prop}

/-- From `m` to `t` the same is found everywhere but at `places`. -/
def SameBut (places : String → String → Prop) (m t : MemoryStore) : Prop :=
  ∀ c n, ¬places c n → t.object? c n = m.object? c n

/-- One place. -/
def At (container name : String) (c n : String) : Prop := c = container ∧ n = name

namespace SameBut

theorem refl (places : String → String → Prop) (m : MemoryStore) : SameBut places m m :=
  fun _ _ _ => rfl

theorem trans (h : SameBut places m t) (h' : SameBut places t u) : SameBut places m u :=
  fun c n hnot => (h' c n hnot).trans (h c n hnot)

theorem mono (h : SameBut places m t) (hsub : ∀ c n, places c n → places' c n) : SameBut places' m t :=
  fun c n hnot => h c n fun hin => hnot (hsub c n hin)

theorem place (m : MemoryStore) (c n : String) (o : StoredObject) : SameBut (At c n) m (m.place c n o) :=
  fun _ _ hnot => object?_place_of_ne hnot

theorem vacate (m : MemoryStore) (c n : String) : SameBut (At c n) m (m.vacate c n) :=
  fun _ _ hnot => object?_vacate_of_ne hnot

end SameBut

/-! ## What calls change -/

/-- A put succeeds and makes an object, or it fails. -/
theorem answer_put_cases (m : MemoryStore) (c n : String) (body : Payload) (options : PutOptions) :
    (∃ t, answer (.put c n body options) m = (.ok (), t) ∧
      t.object? c n = some (m.written body options) ∧ SameBut (At c n) m t) ∨
    ∃ e t, answer (.put c n body options) m = (.error e, t) ∧ SameBut (fun _ _ => False) m t := by
  have hinsert : ∀ u : MemoryStore, u.containers = m.containers → u.now = m.now →
      (∃ t, u.orUnchanged (u.insert c n body options) = (.ok (), t) ∧
        t.object? c n = some (m.written body options) ∧ SameBut (At c n) m t) ∨
      ∃ e t, u.orUnchanged (u.insert c n body options) = (.error e, t) ∧
        SameBut (fun _ _ => False) m t := by
    intro u hcontainers hnow
    have hsame : ∀ c n, u.object? c n = m.object? c n := by
      intro c n
      rw [object?, object?, MemoryStore.objects, MemoryStore.objects, hcontainers]
    by_cases hc : c ∈ u.containers
    · left
      refine ⟨u.place c n (u.written body options), ?_, ?_, ?_⟩
      · simp only [insert, getElem?_containers hc, orUnchanged]
        rfl
      · rw [object?_place_self, written, written, hnow]
      · intro c' n' hnot
        rw [object?_place_of_ne hnot, hsame]
    · right
      refine ⟨.notFound, u, ?_, fun c n _ => hsame c n⟩
      simp only [insert, Std.ExtTreeMap.getElem?_eq_none hc, orUnchanged]
  simp only [answer, takePut]
  cases m.putBudget with
  | none => exact hinsert m rfl rfl
  | some count =>
    cases count with
    | zero => exact .inr ⟨injected, m, rfl, .refl _ m⟩
    | succ count => exact hinsert { m with putBudget := some count } rfl rfl

/-- A copy succeeds and makes an object of the content of another, or it fails and changes nothing. -/
theorem answer_copy_cases (m : MemoryStore) (source target : ObjectTarget) :
    (∃ o t, m.object? source.container source.name = some o ∧
      answer (.copy source target) m = (.ok (), t) ∧
      t.object? target.container target.name
        = some (m.written (m.resolve o) (PutOptions.plain o.contentType)) ∧
      SameBut (At target.container target.name) m t) ∨
    ∃ e, answer (.copy source target) m = (.error e, m) := by
  cases ho : m.object? source.container source.name with
  | none => exact .inr ⟨.notFound, by simp only [answer, ho, orUnchanged]⟩
  | some o =>
    by_cases hc : target.container ∈ m.containers
    · exact .inl ⟨o, _, rfl, answer_copy ho hc, object?_place_self, .place m _ _ _⟩
    · refine .inr ⟨.notFound, ?_⟩
      simp only [answer, ho, insert, Std.ExtTreeMap.getElem?_eq_none hc, orUnchanged]

theorem answer_delete_cases (m : MemoryStore) (c n : String) :
    (answer (.delete c n) m = (.ok (), m.vacate c n) ∧ ∃ o, m.object? c n = some o) ∨
      answer (.delete c n) m = (.error .notFound, m) ∧ m.object? c n = none := by
  cases ho : m.object? c n with
  | some o => exact .inl ⟨answer_delete_of_some ho, o, rfl⟩
  | none => exact .inr ⟨answer_delete_of_none ho, rfl⟩

theorem sameBut_bulkDelete (m : MemoryStore) (targets : List ObjectTarget) :
    SameBut (fun c n => ⟨c, n⟩ ∈ targets) m (answer (.bulkDelete targets) m).2 := by
  simp only [answer, answerBulk]
  split
  · split
    · exact .refl _ m
    · exact .refl _ m
    · intro c n hnot
      exact (eraseAll_without { m with bulkDeleteCalls := m.bulkDeleteCalls + 1 } targets
        BulkDeleteSummary.empty).2.same hnot
  · exact .refl _ m

/-- A call changes nothing but the places that it is about. -/
theorem sameBut_answer (call : StoreCall) (m : MemoryStore) :
    SameBut call.Touches m (answer call m).2 := by
  cases call with
  | put c n body options =>
    rcases answer_put_cases m c n body options with ⟨t, ht, -, hsame⟩ | ⟨e, t, ht, hsame⟩
    · rw [ht]
      exact hsame
    · rw [ht]
      exact hsame.mono fun _ _ => False.elim
  | copy source target =>
    rcases answer_copy_cases m source target with ⟨_, t, -, ht, -, hsame⟩ | ⟨e, ht⟩
    · rw [ht]
      exact hsame
    · rw [ht]
      exact .refl _ m
  | delete c n =>
    rcases answer_delete_cases m c n with ⟨ht, -⟩ | ⟨ht, -⟩
    · rw [ht]
      exact .vacate m c n
    · rw [ht]
      exact .refl _ m
  | bulkDelete targets => exact sameBut_bulkDelete m targets
  | createContainer c => exact fun _ _ _ => object?_withContainer
  | head c n => exact .refl _ m
  | get c n range => exact .refl _ m
  | openFrom c n offset => exact .refl _ m
  | list c options => exact .refl _ m
  | capabilities => exact .refl _ m

/-! ## What operations change -/

section Operation

open VolumeAction

variable {call : StoreCall} {path : String}

theorem preserves_at_of_touches (h : ∀ c n, call.Touches c n → places c n) :
    Preserves (answer.mayFail fails) (SameBut places) (call.at path) :=
  preserves_at_of_mayFail (.refl places) (fun m => (sameBut_answer call m).mono h) path

theorem preserves_try_of_touches (h : ∀ c n, call.Touches c n → places c n) :
    Preserves (answer.mayFail fails) (SameBut places) call.try :=
  preserves_try_of_mayFail (.refl places) fun m => (sameBut_answer call m).mono h

theorem ensures_put_at {body : Payload} {options : PutOptions} :
    Ensures (answer.mayFail fails) ((StoreCall.put c n body options).at path) m
      (fun _ t => t.object? c n = some (m.written body options) ∧ SameBut (At c n) m t)
      fun _ t => SameBut (fun _ _ => False) m t := by
  refine ensures_at ?_
  intro reply t hreply
  rcases hreply with hreply | ⟨-, rfl, e, -, rfl⟩
  · rcases answer_put_cases m c n body options with ⟨u, hu, hobject, hsame⟩ | ⟨e, u, hu, hsame⟩
    · rw [hu] at hreply
      obtain ⟨rfl, rfl⟩ := Prod.mk.inj hreply
      exact ⟨hobject, hsame⟩
    · rw [hu] at hreply
      obtain ⟨rfl, rfl⟩ := Prod.mk.inj hreply
      exact hsame
  · exact .refl _ t

end Operation

end MemoryStore

end SegmentedFiles
