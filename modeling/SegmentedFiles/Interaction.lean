/-! Programs that talk to something they do not contain: an object store, an HTTP server, the host
system. A program is a tree of questions. What answers them is chosen when the program is run, so the
same program can be run over different stores, be recorded, or be made to fail at a chosen question. -/

namespace SegmentedFiles

/-- A program that asks questions `q : Q`, receives an `A q` for each, and ends with an `α`. -/
inductive Interaction (Q : Type) (A : Q → Type) (α : Type) where
  | done (a : α)
  | ask (q : Q) (next : A q → Interaction Q A α)

namespace Interaction

variable {Q : Type} {A : Q → Type} {α β γ σ : Type}

def bind (p : Interaction Q A α) (f : α → Interaction Q A β) : Interaction Q A β :=
  match p with
  | .done a => f a
  | .ask q next => .ask q fun answer => (next answer).bind f

instance : Monad (Interaction Q A) where
  pure := .done
  bind := bind

def request (q : Q) : Interaction Q A (A q) := .ask q .done

/-- Run a program against an answerer that keeps a state. -/
def run (answer : (q : Q) → σ → A q × σ) : Interaction Q A α → σ → α × σ
  | .done a, s => (a, s)
  | .ask q next, s =>
    let (reply, s) := answer q s
    run answer (next reply) s

/-- Run a program in a monad that answers its questions. -/
def runIn {m : Type → Type} [Monad m] (answer : (q : Q) → m (A q)) : Interaction Q A α → m α
  | .done a => pure a
  | .ask q next => do runIn answer (next (← answer q))

/-- Let another kind of question be asked in the place of each question. -/
def asking {R : Type} {B : R → Type} (f : (q : Q) → Interaction R B (A q)) :
    Interaction Q A α → Interaction R B α
  | .done a => .done a
  | .ask q next => (f q).bind fun answer => (next answer).asking f

@[simp] theorem pure_eq (a : α) : (pure a : Interaction Q A α) = .done a := rfl

@[simp] theorem bind_eq (p : Interaction Q A α) (f : α → Interaction Q A β) :
    p >>= f = p.bind f := rfl

@[simp] theorem done_bind (a : α) (f : α → Interaction Q A β) : (done a).bind f = f a := rfl

@[simp] theorem ask_bind (q : Q) (next : A q → Interaction Q A α) (f : α → Interaction Q A β) :
    (ask q next).bind f = .ask q fun answer => (next answer).bind f := rfl

theorem bind_done (p : Interaction Q A α) : p.bind .done = p := by
  induction p with
  | done a => rfl
  | ask q next ih => simp only [ask_bind, ih]

theorem bind_assoc (p : Interaction Q A α) (f : α → Interaction Q A β)
    (g : β → Interaction Q A γ) : (p.bind f).bind g = p.bind fun a => (f a).bind g := by
  induction p with
  | done a => rfl
  | ask q next ih => simp only [ask_bind, ih]

instance : LawfulMonad (Interaction Q A) :=
  LawfulMonad.mk' _ bind_done (fun _ _ => rfl) bind_assoc

@[simp] theorem run_done (answer : (q : Q) → σ → A q × σ) (a : α) (s : σ) :
    run answer (.done a) s = (a, s) := rfl

@[simp] theorem run_ask (answer : (q : Q) → σ → A q × σ) (q : Q)
    (next : A q → Interaction Q A α) (s : σ) :
    run answer (.ask q next) s = run answer (next (answer q s).1) (answer q s).2 := rfl

/-- Running one program after another passes the state on. -/
theorem run_bind (answer : (q : Q) → σ → A q × σ) (p : Interaction Q A α)
    (f : α → Interaction Q A β) (s : σ) :
    run answer (p.bind f) s = run answer (f (run answer p s).1) (run answer p s).2 := by
  induction p generalizing s with
  | done a => rfl
  | ask q next ih => simp only [ask_bind, run_ask, ih]

end Interaction

end SegmentedFiles
