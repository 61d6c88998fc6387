import SegmentedFiles.Interaction

/-! # What a program asks

`Trace` relates a program to the questions that it asks with the answers it gets, and to its result. The answers
are any; a run against an answerer, whose questions and answers are logged, is one way to go (`run_logged`). -/

namespace SegmentedFiles.Interaction

variable {Q : Type} {A : Q → Type} {α β σ : Type}

/-- Questions and their answers, in order. -/
abbrev Log (Q : Type) (A : Q → Type) : Type := List ((q : Q) × A q)

/-- With these questions and answers the program ends with this result. -/
inductive Trace : Interaction Q A α → Log Q A → α → Prop where
  | done (a : α) : Trace (.done a) [] a
  | ask {q : Q} {next : A q → Interaction Q A α} {reply : A q} {log : Log Q A} {a : α} :
    Trace (next reply) log a → Trace (.ask q next) (⟨q, reply⟩ :: log) a

theorem trace_done_iff {a b : α} {log : Log Q A} : Trace (.done a) log b ↔ log = [] ∧ a = b := by
  constructor
  · intro h
    cases h
    exact ⟨rfl, rfl⟩
  · intro h
    obtain ⟨rfl, rfl⟩ := h
    exact .done a

theorem trace_ask_iff {q : Q} {next : A q → Interaction Q A α} {log : Log Q A} {a : α} :
    Trace (.ask q next) log a ↔ ∃ reply rest, log = ⟨q, reply⟩ :: rest ∧ Trace (next reply) rest a := by
  constructor
  · intro h
    cases h with
    | ask hnext => exact ⟨_, _, rfl, hnext⟩
  · intro h
    obtain ⟨reply, rest, rfl, hnext⟩ := h
    exact .ask hnext

/-- The questions of two programs in a row are those of the first and then those of the second. -/
theorem trace_bind_iff {p : Interaction Q A α} {f : α → Interaction Q A β} {log : Log Q A} {b : β} :
    Trace (p.bind f) log b ↔
      ∃ a first rest, log = first ++ rest ∧ Trace p first a ∧ Trace (f a) rest b := by
  induction p generalizing log with
  | done a =>
    simp only [done_bind, trace_done_iff]
    constructor
    · intro h
      exact ⟨a, [], log, rfl, ⟨rfl, rfl⟩, h⟩
    · intro h
      obtain ⟨_, _, rest, rfl, ⟨rfl, rfl⟩, h⟩ := h
      exact h
  | ask q next ih =>
    simp only [ask_bind, trace_ask_iff, ih]
    constructor
    · intro h
      obtain ⟨reply, _, rfl, a, first, rest, rfl, hp, hf⟩ := h
      exact ⟨a, ⟨q, reply⟩ :: first, rest, rfl, ⟨reply, first, rfl, hp⟩, hf⟩
    · intro h
      obtain ⟨a, _, rest, rfl, ⟨reply, first, rfl, hp⟩, hf⟩ := h
      exact ⟨reply, first ++ rest, rfl, a, first, rest, rfl, hp, hf⟩

/-- The answerer that also keeps a log. -/
def logged (answer : (q : Q) → σ → A q × σ) : (q : Q) → Log Q A × σ → A q × (Log Q A × σ) :=
  fun q state =>
    let (reply, s) := answer q state.2
    (reply, (state.1 ++ [⟨q, reply⟩], s))

/-- A log does not change a run, and what the run adds to it is a way for the program to go. -/
theorem run_logged (answer : (q : Q) → σ → A q × σ) (p : Interaction Q A α) (log : Log Q A) (s : σ) :
    ∃ added, run (logged answer) p (log, s) = ((run answer p s).1, (log ++ added, (run answer p s).2)) ∧
      Trace p added (run answer p s).1 := by
  induction p generalizing log s with
  | done a => exact ⟨[], by rw [run_done, run_done, List.append_nil], .done a⟩
  | ask q next ih =>
    obtain ⟨added, hrun, htrace⟩ := ih (answer q s).1 (log ++ [⟨q, (answer q s).1⟩]) (answer q s).2
    refine ⟨⟨q, (answer q s).1⟩ :: added, ?_, .ask htrace⟩
    rw [List.append_assoc] at hrun
    exact hrun

end SegmentedFiles.Interaction
