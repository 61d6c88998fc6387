import SegmentedFiles.Interaction

/-! # What may come of a program

`Interaction.run` has one answerer. Here a question may have several answers: `Outcome` relates a
program and a state to each end that the program may come to, and `Ensures` says that all of them
satisfy a condition. `Preserves` is for conditions that relate the state after to the one before,
whatever that is. A run on an answerer is the case in which each question has one answer
(`outcome_answerer_iff`), so what is ensured is true of the run as well. -/

namespace SegmentedFiles.Interaction

variable {Q : Type} {A : Q → Type} {α β σ : Type}

/-- From the state `s` the program `p` may end with `a` in the state `t`, if each question is answered
as `answers` allows. -/
inductive Outcome (answers : (q : Q) → σ → A q → σ → Prop) :
    Interaction Q A α → σ → α → σ → Prop where
  | done (a : α) (s : σ) : Outcome answers (.done a) s a s
  | ask {q : Q} {next : A q → Interaction Q A α} {s t u : σ} {reply : A q} {a : α} :
      answers q s reply t → Outcome answers (next reply) t a u → Outcome answers (.ask q next) s a u

/-- Whatever comes of `p` from the state `s` satisfies `post`. -/
def Ensures (answers : (q : Q) → σ → A q → σ → Prop) (p : Interaction Q A α) (s : σ)
    (post : α → σ → Prop) : Prop :=
  ∀ a t, Outcome answers p s a t → post a t

variable {answers : (q : Q) → σ → A q → σ → Prop}

theorem outcome_done_iff {a b : α} {s t : σ} :
    Outcome answers (.done a) s b t ↔ a = b ∧ s = t := by
  constructor
  · intro h
    cases h
    exact ⟨rfl, rfl⟩
  · intro h
    obtain ⟨rfl, rfl⟩ := h
    exact .done a s

theorem outcome_ask_iff {q : Q} {next : A q → Interaction Q A α} {a : α} {s u : σ} :
    Outcome answers (.ask q next) s a u ↔
      ∃ reply t, answers q s reply t ∧ Outcome answers (next reply) t a u := by
  constructor
  · intro h
    cases h with
    | ask hq hnext => exact ⟨_, _, hq, hnext⟩
  · intro h
    obtain ⟨reply, t, hq, hnext⟩ := h
    exact .ask hq hnext

/-- The ends of two programs in a row go through an end of the first. -/
theorem outcome_bind_iff {p : Interaction Q A α} {f : α → Interaction Q A β} {b : β} {s u : σ} :
    Outcome answers (p.bind f) s b u ↔
      ∃ a t, Outcome answers p s a t ∧ Outcome answers (f a) t b u := by
  induction p generalizing s with
  | done a =>
    simp only [done_bind, outcome_done_iff]
    constructor
    · intro h
      exact ⟨a, s, ⟨rfl, rfl⟩, h⟩
    · intro h
      obtain ⟨_, _, ⟨rfl, rfl⟩, h⟩ := h
      exact h
  | ask q next ih =>
    simp only [ask_bind, outcome_ask_iff, ih]
    constructor
    · intro h
      obtain ⟨reply, r, hq, a, t, hp, hf⟩ := h
      exact ⟨a, t, ⟨reply, r, hq, hp⟩, hf⟩
    · intro h
      obtain ⟨a, t, ⟨reply, r, hq, hp⟩, hf⟩ := h
      exact ⟨reply, r, hq, a, t, hp, hf⟩

/-- An answerer leaves one end. -/
theorem outcome_answerer_iff {answer : (q : Q) → σ → A q × σ} {p : Interaction Q A α} {a : α}
    {s t : σ} :
    Outcome (fun q s reply t => answer q s = (reply, t)) p s a t ↔ run answer p s = (a, t) := by
  induction p generalizing s with
  | done b => simp [outcome_done_iff]
  | ask q next ih =>
    simp only [outcome_ask_iff, ih, run_ask]
    constructor
    · intro h
      obtain ⟨reply, u, hq, hnext⟩ := h
      rw [hq]
      exact hnext
    · intro h
      exact ⟨_, _, rfl, h⟩

/-- Where more answers are allowed, all ends stay possible. -/
theorem Outcome.mono {answers' : (q : Q) → σ → A q → σ → Prop}
    (hsub : ∀ q s reply t, answers q s reply t → answers' q s reply t) {p : Interaction Q A α}
    {a : α} {s t : σ} (h : Outcome answers p s a t) : Outcome answers' p s a t := by
  induction h with
  | done a s => exact .done a s
  | ask hq _ ih => exact .ask (hsub _ _ _ _ hq) ih

/-- If each question may be answered, the program comes to an end. -/
theorem exists_outcome (htotal : ∀ q s, ∃ reply t, answers q s reply t) (p : Interaction Q A α)
    (s : σ) : ∃ a t, Outcome answers p s a t := by
  induction p generalizing s with
  | done a => exact ⟨a, s, .done a s⟩
  | ask q next ih =>
    obtain ⟨reply, t, hq⟩ := htotal q s
    obtain ⟨a, u, h⟩ := ih reply t
    exact ⟨a, u, .ask hq h⟩

/-! ## Conditions on all ends -/

theorem ensures_done {a : α} {s : σ} {post : α → σ → Prop} (h : post a s) :
    Ensures answers (.done a) s post := by
  intro b t hb
  obtain ⟨rfl, rfl⟩ := outcome_done_iff.1 hb
  exact h

theorem ensures_ask {q : Q} {next : A q → Interaction Q A α} {s : σ} {post : α → σ → Prop}
    (h : ∀ reply t, answers q s reply t → Ensures answers (next reply) t post) :
    Ensures answers (.ask q next) s post := by
  intro a u ha
  obtain ⟨reply, t, hq, hnext⟩ := outcome_ask_iff.1 ha
  exact h reply t hq a u hnext

theorem Ensures.bind {p : Interaction Q A α} {f : α → Interaction Q A β} {s : σ}
    {mid : α → σ → Prop} {post : β → σ → Prop} (hp : Ensures answers p s mid)
    (hf : ∀ a t, mid a t → Ensures answers (f a) t post) : Ensures answers (p.bind f) s post := by
  intro b u hb
  obtain ⟨a, t, ha, hb⟩ := outcome_bind_iff.1 hb
  exact hf a t (hp a t ha) b u hb

theorem Ensures.mono {p : Interaction Q A α} {s : σ} {post post' : α → σ → Prop}
    (hp : Ensures answers p s post) (h : ∀ a t, post a t → post' a t) :
    Ensures answers p s post' :=
  fun a t ha => h a t (hp a t ha)

/-! ## Relations between the states before and after -/

/-- Whatever comes of `p`, the state before and the state after are related. -/
def Preserves (answers : (q : Q) → σ → A q → σ → Prop) (R : σ → σ → Prop)
    (p : Interaction Q A α) : Prop :=
  ∀ s, Ensures answers p s fun _ t => R s t

variable {R : σ → σ → Prop}

theorem preserves_done (hrefl : ∀ s, R s s) (a : α) : Preserves answers R (.done a) :=
  fun s => ensures_done (hrefl s)

theorem Preserves.bind (htrans : ∀ s t u, R s t → R t u → R s u) {p : Interaction Q A α}
    {f : α → Interaction Q A β} (hp : Preserves answers R p) (hf : ∀ a, Preserves answers R (f a)) :
    Preserves answers R (p.bind f) := by
  intro s
  refine Ensures.bind (hp s) ?_
  intro a t hst
  exact (hf a t).mono fun _ u htu => htrans s t u hst htu

end SegmentedFiles.Interaction
