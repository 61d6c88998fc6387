import SegmentedFiles.Proofs.Store.Failing
import SegmentedFiles.Volume.Basic

/-! # Conditions on what an operation on files does

An operation ends with a result or with an error. `VolumeAction.Ensures` has a condition for either
end; the rules follow the notation in which the operations are written: one after another, a call
whose failure is the operation's, a call whose outcome is looked at, a loop over a list, and an attempt
whose failure is dealt with. On a store of which some calls may fail, a call is known by the store's
answer and by what is true if it fails. -/

namespace SegmentedFiles.VolumeAction

open Interaction (Outcome)

variable {α β σ : Type}

/-- Run an operation on a store. -/
def runOn (x : VolumeAction α) (store : Store σ) (s : σ) : Except VolumeError α × σ :=
  StoreProgram.runOn x.run store s

/-- From the state `s` the operation `x` ends with a result and a state of which `ok` is true, or with
an error and a state of which `fail` is true. -/
def Ensures (answers : (call : StoreCall) → σ → call.Reply → σ → Prop) (x : VolumeAction α) (s : σ)
    (ok : α → σ → Prop) (fail : VolumeError → σ → Prop) : Prop :=
  Interaction.Ensures answers x.run s fun r t =>
    match r with
    | .ok a => ok a t
    | .error e => fail e t

variable {answers : (call : StoreCall) → σ → call.Reply → σ → Prop} {s : σ}
  {ok ok' : α → σ → Prop} {fail fail' : VolumeError → σ → Prop}

theorem ensures_pure {a : α} (h : ok a s) : Ensures answers (pure a) s ok fail :=
  Interaction.ensures_done h

theorem ensures_throw {e : VolumeError} (h : fail e s) :
    Ensures answers (throw e : VolumeAction α) s ok fail :=
  Interaction.ensures_done h

theorem Ensures.bind {x : VolumeAction β} {f : β → VolumeAction α} {mid : β → σ → Prop}
    (hx : Ensures answers x s mid fail) (hf : ∀ b t, mid b t → Ensures answers (f b) t ok fail) :
    Ensures answers (x >>= f) s ok fail := by
  refine Interaction.Ensures.bind hx ?_
  intro r t hr
  cases r with
  | ok b => exact hf b t hr
  | error e => exact Interaction.ensures_done hr

theorem Ensures.mono {x : VolumeAction α} (hx : Ensures answers x s ok fail)
    (hok : ∀ a t, ok a t → ok' a t) (hfail : ∀ e t, fail e t → fail' e t) :
    Ensures answers x s ok' fail' := by
  refine Interaction.Ensures.mono hx ?_
  intro r t hr
  cases r with
  | ok a => exact hok a t hr
  | error e => exact hfail e t hr

/-- As `Ensures.bind`, where something else is known of an error of the first operation. -/
theorem Ensures.bind_mono {x : VolumeAction β} {f : β → VolumeAction α} {mid : β → σ → Prop}
    (hx : Ensures answers x s mid fail') (hfail : ∀ e t, fail' e t → fail e t)
    (hf : ∀ b t, mid b t → Ensures answers (f b) t ok fail) : Ensures answers (x >>= f) s ok fail :=
  (hx.mono (fun _ _ h => h) hfail).bind hf

/-- What is ensured of the ends is true of ends that there are. -/
theorem Ensures.outcome {x : VolumeAction α} (hx : Ensures answers x s ok fail) :
    Ensures answers x s (fun a t => Outcome answers x.run s (.ok a) t ∧ ok a t)
      fun e t => Outcome answers x.run s (.error e) t ∧ fail e t := by
  intro r t h
  have hend := hx r t h
  cases r with
  | ok a => exact ⟨h, hend⟩
  | error e => exact ⟨h, hend⟩

/-- What is true at either end. -/
theorem Ensures.state {x : VolumeAction α} {post : σ → Prop}
    (hx : Ensures answers x s (fun _ t => post t) fun _ t => post t) {r : Except VolumeError α} {t : σ}
    (h : Outcome answers x.run s r t) : post t := by
  have hend := hx r t h
  cases r with
  | ok a => exact hend
  | error e => exact hend

/-- Where no call fails, a run comes to one of the ends. -/
theorem Ensures.runOn {store : Store σ} {x : VolumeAction α}
    (hx : Ensures (store.mayFail never) x s ok fail) :
    match x.runOn store s with
    | (.ok a, t) => ok a t
    | (.error e, t) => fail e t := by
  have hend := hx _ _ (outcome_never_iff.2 rfl)
  change match (x.runOn store s).1 with
    | .ok a => ok a (x.runOn store s).2
    | .error e => fail e (x.runOn store s).2 at hend
  cases hrun : x.runOn store s with
  | mk r t =>
    rw [hrun] at hend
    cases r with
    | ok a => exact hend
    | error e => exact hend

theorem Ensures.exists_runOn {store : Store σ} {x : VolumeAction α}
    (hx : Ensures (store.mayFail never) x s ok fun _ _ => False) :
    ∃ a t, x.runOn store s = (.ok a, t) ∧ ok a t := by
  have hend := hx.runOn
  split at hend
  · next a t hrun => exact ⟨a, t, hrun, hend⟩
  · exact hend.elim

/-- The operation that only makes a call, at a path. -/
theorem ensures_at {call : StoreCall} {path : String} {ok : call.Answer → σ → Prop}
    (h : ∀ reply t, answers call s reply t →
      match reply with
      | .ok a => ok a t
      | .error e => fail (.ofStore path e) t) :
    Ensures answers (call.at path) s ok fail := by
  refine Interaction.ensures_ask ?_
  intro reply t hreply
  have hend := h reply t hreply
  cases reply with
  | ok a => exact Interaction.ensures_done hend
  | error e => exact Interaction.ensures_done hend

theorem ensures_try {call : StoreCall} {ok : call.Reply → σ → Prop}
    (h : ∀ reply t, answers call s reply t → ok reply t) :
    Ensures answers call.try s ok fail := by
  refine Interaction.ensures_ask ?_
  intro reply t hreply
  exact Interaction.ensures_done (h reply t hreply)

/-- A loop over a list with a value that it changes. `inv` says what is true when a part of the list is
still ahead. -/
theorem ensures_forIn_value {γ : Type} {xs : List β} {init : γ}
    {body : β → γ → VolumeAction (ForInStep γ)} (inv : List β → γ → σ → Prop)
    {fail : VolumeError → σ → Prop} (hinit : inv xs init s)
    (hstep : ∀ x rest c t, inv (x :: rest) c t →
      Ensures answers (body x c) t (fun step u => ∃ d, step = ForInStep.yield d ∧ inv rest d u) fail) :
    Ensures answers (forIn xs init body) s (fun c t => inv [] c t) fail := by
  induction xs generalizing s init with
  | nil => exact ensures_pure hinit
  | cons x rest ih =>
    rw [List.forIn_cons]
    refine (hstep x rest init s hinit).bind ?_
    intro step t ht
    obtain ⟨d, rfl, hd⟩ := ht
    exact ih hd

theorem ensures_forIn {xs : List β} {body : β → PUnit → VolumeAction (ForInStep PUnit)}
    (inv : List β → σ → Prop) {fail : VolumeError → σ → Prop} (hinit : inv xs s)
    (hstep : ∀ x rest t, inv (x :: rest) t →
      Ensures answers (body x PUnit.unit) t
        (fun step u => step = ForInStep.yield PUnit.unit ∧ inv rest u) fail) :
    Ensures answers (forIn xs PUnit.unit body) s (fun _ t => inv [] t) fail := by
  refine ensures_forIn_value (fun rest _ => inv rest) hinit ?_
  intro x rest _ t ht
  exact (hstep x rest t ht).mono (fun _ _ h => ⟨PUnit.unit, h⟩) fun _ _ h => h

/-- A round of a loop that goes on in any case. -/
theorem Ensures.yield {x : VolumeAction PUnit} {ok : σ → Prop}
    (hx : Ensures answers x s (fun _ t => ok t) fail) :
    Ensures answers (x >>= fun _ => pure (ForInStep.yield PUnit.unit)) s
      (fun step t => step = ForInStep.yield PUnit.unit ∧ ok t) fail :=
  hx.bind fun _ _ ht => ensures_pure ⟨rfl, ht⟩

theorem ensures_tryCatch {x : VolumeAction α} {handle : VolumeError → VolumeAction α}
    {caught : VolumeError → σ → Prop} (hx : Ensures answers x s ok caught)
    (hcatch : ∀ e t, caught e t → Ensures answers (handle e) t ok fail) :
    Ensures answers (tryCatch x handle) s ok fail := by
  refine Interaction.Ensures.bind hx ?_
  intro r t hr
  cases r with
  | ok a => exact Interaction.ensures_done hr
  | error e => exact hcatch e t hr

/-! ## Calls on a store of which some may fail -/

section MayFail

variable {store : Store σ} {fails : StoreCall → Prop} {s t : σ} {call : StoreCall} {path : String}
  {fail : VolumeError → σ → Prop}

/-- A call that the store carries out, unless it fails. -/
theorem ensures_at_of_mayFail
    (hanswers : ∀ reply t, answers call s reply t → store.mayFail fails call s reply t)
    {a : call.Answer} {ok : call.Answer → σ → Prop} (h : store call s = (.ok a, t)) (hok : ok a t)
    (hfail : ∀ e, fails call → fail e s) : Ensures answers (call.at path) s ok fail := by
  refine ensures_at ?_
  intro reply u hreply
  rcases hanswers reply u hreply with hreply | ⟨hcall, rfl, e, -, rfl⟩
  · rw [h] at hreply
    obtain ⟨rfl, rfl⟩ := Prod.mk.inj hreply
    exact hok
  · exact hfail _ hcall

theorem ensures_at_bind_of_mayFail
    (hanswers : ∀ reply t, answers call s reply t → store.mayFail fails call s reply t)
    {a : call.Answer} {f : call.Answer → VolumeAction α} {ok : α → σ → Prop}
    (h : store call s = (.ok a, t)) (hok : Ensures answers (f a) t ok fail)
    (hfail : ∀ e, fails call → fail e s) : Ensures answers (call.at path >>= f) s ok fail := by
  have hcall : Ensures answers (call.at path) s (fun b u => b = a ∧ u = t) fail :=
    ensures_at_of_mayFail hanswers h ⟨rfl, rfl⟩ hfail
  refine hcall.bind ?_
  intro b u hend
  obtain ⟨rfl, rfl⟩ := hend
  exact hok

/-- A call whose outcome is looked at: it is what the store answers, or the call fails. -/
theorem ensures_try_bind_of_mayFail
    (hanswers : ∀ reply t, answers call s reply t → store.mayFail fails call s reply t)
    {reply : call.Reply} {f : call.Reply → VolumeAction α} {ok : α → σ → Prop}
    (h : store call s = (reply, t)) (hok : Ensures answers (f reply) t ok fail)
    (hfail : ∀ e, e ≠ .notFound → fails call → Ensures answers (f (.error e)) s ok fail) :
    Ensures answers (call.try >>= f) s ok fail := by
  have hcall : Ensures answers call.try s
      (fun reply' u => reply' = reply ∧ u = t ∨
        u = s ∧ fails call ∧ ∃ e, e ≠ .notFound ∧ reply' = .error e) fail := by
    refine ensures_try ?_
    intro reply' u hreply
    rcases hanswers reply' u hreply with hreply | ⟨hcall, rfl, e, he, rfl⟩
    · rw [h] at hreply
      obtain ⟨rfl, rfl⟩ := Prod.mk.inj hreply
      exact .inl ⟨rfl, rfl⟩
    · exact .inr ⟨rfl, hcall, e, he, rfl⟩
  refine hcall.bind ?_
  intro reply' u hu
  rcases hu with ⟨rfl, rfl⟩ | ⟨rfl, hcall, e, he, rfl⟩
  · exact hok
  · exact hfail e he hcall

theorem ensures_at_ok {a : call.Answer} {ok : call.Answer → σ → Prop}
    (h : store call s = (.ok a, t)) (hok : ok a t) (hfail : ∀ e, fails call → fail e s) :
    Ensures (store.mayFail fails) (call.at path) s ok fail :=
  ensures_at_of_mayFail (fun _ _ hreply => hreply) h hok hfail

theorem ensures_at_bind {a : call.Answer} {f : call.Answer → VolumeAction α} {ok : α → σ → Prop}
    (h : store call s = (.ok a, t)) (hok : Ensures (store.mayFail fails) (f a) t ok fail)
    (hfail : ∀ e, fails call → fail e s) :
    Ensures (store.mayFail fails) (call.at path >>= f) s ok fail :=
  ensures_at_bind_of_mayFail (fun _ _ hreply => hreply) h hok hfail

theorem ensures_try_bind {reply : call.Reply} {f : call.Reply → VolumeAction α}
    {ok : α → σ → Prop} (h : store call s = (reply, t))
    (hok : Ensures (store.mayFail fails) (f reply) t ok fail)
    (hfail : ∀ e, e ≠ .notFound → fails call →
      Ensures (store.mayFail fails) (f (.error e)) s ok fail) :
    Ensures (store.mayFail fails) (call.try >>= f) s ok fail :=
  ensures_try_bind_of_mayFail (fun _ _ hreply => hreply) h hok hfail

end MayFail

/-! ## Relations between the states before and after -/

/-- Whatever comes of an operation, the state before and the state after are related. -/
def Preserves (answers : (call : StoreCall) → σ → call.Reply → σ → Prop) (R : σ → σ → Prop)
    (x : VolumeAction α) : Prop :=
  Interaction.Preserves answers R x.run

section Preserves

variable {R : σ → σ → Prop} {call : StoreCall}

theorem Preserves.ensures {x : VolumeAction α} (h : Preserves answers R x) (s : σ) :
    Ensures answers x s (fun _ t => R s t) fun _ t => R s t := by
  refine Interaction.Ensures.mono (h s) ?_
  intro r t hr
  cases r with
  | ok a => exact hr
  | error e => exact hr

theorem preserves_of_ensures {x : VolumeAction α}
    (h : ∀ s, Ensures answers x s (fun _ t => R s t) fun _ t => R s t) :
    Preserves answers R x := by
  intro s
  refine Interaction.Ensures.mono (h s) ?_
  intro r t hr
  cases r with
  | ok a => exact hr
  | error e => exact hr

theorem preserves_pure (hrefl : ∀ s, R s s) (a : α) : Preserves answers R (pure a) :=
  Interaction.preserves_done hrefl _

theorem preserves_throw (hrefl : ∀ s, R s s) (e : VolumeError) :
    Preserves answers R (throw e : VolumeAction α) :=
  Interaction.preserves_done hrefl _

theorem Preserves.bind (hrefl : ∀ s, R s s) (htrans : ∀ s t u, R s t → R t u → R s u)
    {x : VolumeAction β} {f : β → VolumeAction α} (hx : Preserves answers R x)
    (hf : ∀ b, Preserves answers R (f b)) : Preserves answers R (x >>= f) := by
  refine Interaction.Preserves.bind htrans hx ?_
  intro r
  cases r with
  | ok b => exact hf b
  | error e => exact Interaction.preserves_done hrefl _

theorem preserves_at (h : ∀ s reply t, answers call s reply t → R s t) (path : String) :
    Preserves answers R (call.at path) := by
  refine preserves_of_ensures fun s => ensures_at ?_
  intro reply t hreply
  cases reply with
  | ok a => exact h s _ t hreply
  | error e => exact h s _ t hreply

theorem preserves_try (h : ∀ s reply t, answers call s reply t → R s t) :
    Preserves answers R call.try :=
  preserves_of_ensures fun s => ensures_try fun reply t hreply => h s reply t hreply

/-- Calls that may fail. -/
theorem preserves_at_of_mayFail {store : Store σ} {fails : StoreCall → Prop} (hrefl : ∀ s, R s s)
    (h : ∀ s, R s (store call s).2) (path : String) :
    Preserves (store.mayFail fails) R (call.at path) := by
  refine preserves_at (fun s reply t hreply => ?_) path
  rcases hreply with hreply | ⟨-, rfl, -⟩
  · have hstep := h s
    rwa [hreply] at hstep
  · exact hrefl t

theorem preserves_try_of_mayFail {store : Store σ} {fails : StoreCall → Prop} (hrefl : ∀ s, R s s)
    (h : ∀ s, R s (store call s).2) : Preserves (store.mayFail fails) R call.try := by
  refine preserves_try fun s reply t hreply => ?_
  rcases hreply with hreply | ⟨-, rfl, -⟩
  · have hstep := h s
    rwa [hreply] at hstep
  · exact hrefl t

theorem preserves_tryCatch (htrans : ∀ s t u, R s t → R t u → R s u) {x : VolumeAction α}
    {handle : VolumeError → VolumeAction α} (hx : Preserves answers R x)
    (hcatch : ∀ e, Preserves answers R (handle e)) : Preserves answers R (tryCatch x handle) := by
  refine preserves_of_ensures fun s => ensures_tryCatch (hx.ensures s) ?_
  intro e t hst
  exact ((hcatch e).ensures t).mono (fun _ u htu => htrans s t u hst htu) fun _ u htu =>
    htrans s t u hst htu

theorem preserves_forIn_value (hrefl : ∀ s, R s s) (htrans : ∀ s t u, R s t → R t u → R s u)
    {γ : Type} {xs : List β} {init : γ} {body : β → γ → VolumeAction (ForInStep γ)}
    (h : ∀ x ∈ xs, ∀ c, Preserves answers R (body x c)) :
    Preserves answers R (forIn xs init body) := by
  induction xs generalizing init with
  | nil => exact preserves_pure hrefl init
  | cons x rest ih =>
    rw [List.forIn_cons]
    refine Preserves.bind hrefl htrans (h x List.mem_cons_self init) ?_
    intro step
    cases step with
    | done c => exact preserves_pure hrefl c
    | yield c => exact ih fun y hy => h y (List.mem_cons_of_mem x hy)

theorem preserves_forIn (hrefl : ∀ s, R s s) (htrans : ∀ s t u, R s t → R t u → R s u)
    {xs : List β} {body : β → VolumeAction PUnit} (h : ∀ x ∈ xs, Preserves answers R (body x)) :
    Preserves answers R
      (forIn xs PUnit.unit fun x _ => do
        body x
        pure (ForInStep.yield PUnit.unit)) :=
  preserves_forIn_value hrefl htrans fun x hx _ =>
    (h x hx).bind hrefl htrans fun _ => preserves_pure hrefl _

end Preserves

end SegmentedFiles.VolumeAction
