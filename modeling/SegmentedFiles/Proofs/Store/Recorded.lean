import SegmentedFiles.Proofs.Bytes.Splice
import SegmentedFiles.Proofs.Volume.Action
import SegmentedFiles.Store.Trace

/-! # What is recorded of a run

A store that keeps a record of its calls answers as it does without one (`outcome_of_recorded`), so what
is ensured of a program on the store is ensured on the recorded one as well (`Ensures.recorded`). Of the
record itself there are the puts, each with its target and its bytes (`Recorded.puts`). -/

namespace SegmentedFiles

open Interaction (Outcome)

variable {σ α : Type} {store : Store σ} {fails : StoreCall → Prop} {call : StoreCall}
  {s t : Recorded σ}

/-- Where a call puts an object, and of which bytes, if it puts one. -/
def StoreCall.put? : StoreCall → Option (ObjectTarget × Bytes)
  | .put container name body _ => some (⟨container, name⟩, body.bytes)
  | _ => none

/-- The puts that are recorded, in their order. -/
def Recorded.puts (r : Recorded σ) : List (ObjectTarget × Bytes) :=
  r.calls.reverse.filterMap StoreCall.put?

theorem Recorded.puts_of_cons (h : t.calls = call :: s.calls) :
    t.puts = s.puts ++ call.put?.toList := by
  rw [puts, puts, h, List.reverse_cons, List.filterMap_append]
  cases hput : call.put? with
  | none => rw [List.filterMap_cons_none hput]; rfl
  | some put => rw [List.filterMap_cons_some hput]; rfl

/-- A call that the store carries out comes on top of the record. -/
theorem Store.mayFail_recorded_iff {reply : call.Reply} :
    store.recorded.mayFail never call s reply t ↔
      t.calls = call :: s.calls ∧ store call s.store = (reply, t.store) := by
  constructor
  · intro h
    rcases h with h | h
    · obtain ⟨rfl, rfl⟩ := Prod.mk.inj h
      exact ⟨rfl, rfl⟩
    · exact h.1.elim
  · intro h
    obtain ⟨hcalls, hanswer⟩ := h
    obtain ⟨calls, u⟩ := t
    obtain rfl : calls = call :: s.calls := hcalls
    left
    simp only [recorded, hanswer]

/-- Without its record, a recorded run is a run. -/
theorem outcome_of_recorded {program : StoreProgram α} {a : α}
    (h : Outcome (store.recorded.mayFail fails) program s a t) :
    Outcome (store.mayFail fails) program s.store a t.store := by
  induction h with
  | done a s => exact .done a s.store
  | ask hcall _ ih =>
    refine .ask ?_ ih
    rcases hcall with hcall | ⟨hcall, rfl, he⟩
    · obtain ⟨rfl, rfl⟩ := Prod.mk.inj hcall
      exact .inl rfl
    · exact .inr ⟨hcall, rfl, he⟩

theorem Interaction.Ensures.recorded {program : StoreProgram α} {post : α → σ → Prop}
    (h : Interaction.Ensures (store.mayFail fails) program s.store post) :
    Interaction.Ensures (store.recorded.mayFail fails) program s fun a t => post a t.store :=
  fun a t ht => h a t.store (outcome_of_recorded ht)

/-- What is known of the record is known besides what is ensured on the store. -/
theorem VolumeAction.Ensures.and_recorded {x : VolumeAction α} {ok : α → σ → Prop}
    {fail : VolumeError → σ → Prop} {okRecorded : α → Recorded σ → Prop}
    (h : VolumeAction.Ensures (store.mayFail fails) x s.store ok fail)
    (hrecorded : VolumeAction.Ensures (store.recorded.mayFail fails) x s okRecorded fun _ _ => True) :
    VolumeAction.Ensures (store.recorded.mayFail fails) x s
      (fun a t => ok a t.store ∧ okRecorded a t) fun e t => fail e t.store := by
  intro r t ht
  have hstore := h r t.store (outcome_of_recorded ht)
  have hrecord := hrecorded r t ht
  cases r with
  | ok a => exact ⟨hstore, hrecord⟩
  | error e => exact hstore

end SegmentedFiles
