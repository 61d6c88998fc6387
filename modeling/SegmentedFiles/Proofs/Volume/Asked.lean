import SegmentedFiles.Proofs.Store.Recorded
import SegmentedFiles.Proofs.Volume.Action

/-! # What a program asks on its way

`Interaction.Outcome` is about the ends that a program may come to. `Interaction.Asked` is about the
questions on the way there, each with the state in which it is asked, and `Interaction.Asks` says that all
of them are good ones. What is asked by two programs in a row is asked by the first, or by the second from
where the first has ended (`asked_bind_iff`); so what is ensured of that end may be used for the second
(`Asks.bind`). The rules for operations on files follow from this one. -/

namespace SegmentedFiles

namespace Interaction

variable {Q : Type} {A : Q → Type} {α β σ : Type}

/-- From the state `s` the program may come to a state in which it asks `q`. -/
inductive Asked (answers : (q : Q) → σ → A q → σ → Prop) :
    Interaction Q A α → σ → Q → σ → Prop where
  | now (q : Q) (next : A q → Interaction Q A α) (s : σ) : Asked answers (.ask q next) s q s
  | later {q q' : Q} {next : A q → Interaction Q A α} {s t u : σ} {reply : A q} :
      answers q s reply t → Asked answers (next reply) t q' u → Asked answers (.ask q next) s q' u

/-- Whatever `p` asks from the state `s` on is good in the state in which it is asked. -/
def Asks (answers : (q : Q) → σ → A q → σ → Prop) (p : Interaction Q A α) (s : σ)
    (good : Q → σ → Prop) : Prop :=
  ∀ q t, Asked answers p s q t → good q t

variable {answers : (q : Q) → σ → A q → σ → Prop} {good : Q → σ → Prop} {s : σ}

theorem asked_ask_iff {q q' : Q} {next : A q → Interaction Q A α} {u : σ} :
    Asked answers (.ask q next) s q' u ↔
      q' = q ∧ u = s ∨ ∃ reply t, answers q s reply t ∧ Asked answers (next reply) t q' u := by
  constructor
  · intro h
    cases h with
    | now => exact .inl ⟨rfl, rfl⟩
    | later hq hnext => exact .inr ⟨_, _, hq, hnext⟩
  · intro h
    rcases h with ⟨rfl, rfl⟩ | ⟨reply, t, hq, hnext⟩
    · exact .now q' next u
    · exact .later hq hnext

theorem asked_bind_iff {p : Interaction Q A α} {f : α → Interaction Q A β} {q : Q} {u : σ} :
    Asked answers (p.bind f) s q u ↔
      Asked answers p s q u ∨ ∃ a t, Outcome answers p s a t ∧ Asked answers (f a) t q u := by
  induction p generalizing s with
  | done a =>
    rw [done_bind]
    constructor
    · intro h
      exact .inr ⟨a, s, .done a s, h⟩
    · intro h
      rcases h with h | ⟨b, t, hend, h⟩
      · cases h
      · obtain ⟨rfl, rfl⟩ := outcome_done_iff.1 hend
        exact h
  | ask q' next ih =>
    simp only [ask_bind, asked_ask_iff, outcome_ask_iff, ih]
    constructor
    · intro h
      rcases h with h | ⟨reply, r, hq, h | ⟨a, t, hend, h⟩⟩
      · exact .inl (.inl h)
      · exact .inl (.inr ⟨reply, r, hq, h⟩)
      · exact .inr ⟨a, t, ⟨reply, r, hq, hend⟩, h⟩
    · intro h
      rcases h with (h | ⟨reply, r, hq, h⟩) | ⟨a, t, ⟨reply, r, hq, hend⟩, h⟩
      · exact .inl h
      · exact .inr ⟨reply, r, hq, .inl h⟩
      · exact .inr ⟨reply, r, hq, .inr ⟨a, t, hend, h⟩⟩

theorem asks_done (a : α) : Asks answers (.done a) s good := by
  intro q t h
  cases h

theorem asks_ask {q : Q} {next : A q → Interaction Q A α} (hq : good q s)
    (hnext : ∀ reply t, answers q s reply t → Asks answers (next reply) t good) :
    Asks answers (.ask q next) s good := by
  intro q' u h
  rcases asked_ask_iff.1 h with ⟨rfl, rfl⟩ | ⟨reply, t, hreply, h⟩
  · exact hq
  · exact hnext reply t hreply q' u h

theorem Asks.bind {p : Interaction Q A α} {f : α → Interaction Q A β} {mid : α → σ → Prop}
    (hp : Asks answers p s good) (hmid : Ensures answers p s mid)
    (hf : ∀ a t, mid a t → Asks answers (f a) t good) : Asks answers (p.bind f) s good := by
  intro q u h
  rcases asked_bind_iff.1 h with h | ⟨a, t, hend, h⟩
  · exact hp q u h
  · exact hf a t (hmid a t hend) q u h

end Interaction

/-! ## Operations on files -/

namespace VolumeAction

variable {α β σ : Type} {answers : (call : StoreCall) → σ → call.Reply → σ → Prop}
  {good : StoreCall → σ → Prop} {s : σ}

/-- Whatever calls the operation makes from the state `s` on are good ones. -/
def Asks (answers : (call : StoreCall) → σ → call.Reply → σ → Prop) (x : VolumeAction α) (s : σ)
    (good : StoreCall → σ → Prop) : Prop :=
  Interaction.Asks answers x.run s good

theorem asks_pure (a : α) : Asks answers (pure a) s good := Interaction.asks_done _

theorem asks_throw (e : VolumeError) : Asks answers (throw e : VolumeAction α) s good :=
  Interaction.asks_done _

theorem Asks.bind {x : VolumeAction β} {f : β → VolumeAction α} {mid : β → σ → Prop}
    {fail : VolumeError → σ → Prop} (hx : Asks answers x s good) (hmid : Ensures answers x s mid fail)
    (hf : ∀ b t, mid b t → Asks answers (f b) t good) : Asks answers (x >>= f) s good := by
  refine Interaction.Asks.bind hx hmid ?_
  intro r t hr
  cases r with
  | ok b => exact hf b t hr
  | error e => exact Interaction.asks_done _

/-- As `Asks.bind`, where the second operation makes good calls from any state. -/
theorem Asks.bind_any {x : VolumeAction β} {f : β → VolumeAction α} (hx : Asks answers x s good)
    (hf : ∀ b t, Asks answers (f b) t good) : Asks answers (x >>= f) s good := by
  have hany : Interaction.Ensures answers x.run s fun _ _ => True := fun _ _ _ => trivial
  refine Interaction.Asks.bind hx hany ?_
  intro r t _
  cases r with
  | ok b => exact hf b t
  | error e => exact Interaction.asks_done _

theorem asks_at {call : StoreCall} (path : String) (h : good call s) :
    Asks answers (call.at path) s good :=
  Interaction.asks_ask h fun _ _ _ => Interaction.asks_done _

/-- A call whose outcome is looked at, on a store of which some calls may fail. -/
theorem asks_try_bind {store : Store σ} {fails : StoreCall → Prop} {call : StoreCall} {t : σ}
    {reply : call.Reply} {f : call.Reply → VolumeAction α} (hcall : good call s)
    (h : store call s = (reply, t)) (hok : Asks (store.mayFail fails) (f reply) t good)
    (hfail : ∀ e, e ≠ .notFound → Asks (store.mayFail fails) (f (.error e)) s good) :
    Asks (store.mayFail fails) (call.try >>= f) s good := by
  refine Interaction.asks_ask hcall fun reply' u hreply => ?_
  rcases hreply with hreply | ⟨-, rfl, e, he, rfl⟩
  · rw [h] at hreply
    obtain ⟨rfl, rfl⟩ := Prod.mk.inj hreply
    exact hok
  · exact hfail e he

/-- A loop whose rounds make good calls from any state. -/
theorem asks_forIn {γ : Type} {xs : List β} {init : γ} {body : β → γ → VolumeAction (ForInStep γ)}
    (h : ∀ x c t, Asks answers (body x c) t good) : Asks answers (forIn xs init body) s good := by
  induction xs generalizing s init with
  | nil => exact asks_pure init
  | cons x rest ih =>
    rw [List.forIn_cons]
    refine (h x init s).bind_any fun step t => ?_
    cases step with
    | done c => exact asks_pure c
    | yield c => exact ih

end VolumeAction

end SegmentedFiles
