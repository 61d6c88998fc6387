import SegmentedFiles.Store.Trace

/-! A store some of whose calls fail instead of being carried out. -/

namespace SegmentedFiles

/-- A rule by which calls fail. It is about the calls of one kind, of one container and of one name;
what is left open it does not ask for. -/
structure Fault where
  method : String
  container : Option String
  name : Option String
  /-- How many more of the calls it is about go through first. -/
  skip : Nat
  /-- How many more calls fail then, if there is a limit. -/
  times : Option Nat
  error : StoreError

namespace Fault

def concerns (fault : Fault) (call : StoreCall) : Bool :=
  fault.method == call.method
    && fault.container.all (· == call.subject.container)
    && fault.name.all (· == call.subject.name)

/-- The error with which a call fails, if any, and what is left of the rules. The rules are tried in
order. One that still lets calls through counts the call and leaves it to the rules after it. -/
def intercept (call : StoreCall) : List Fault → Option StoreError × List Fault
  | [] => (none, [])
  | fault :: rest =>
    let pass (fault : Fault) :=
      let (error, rest) := intercept call rest
      (error, fault :: rest)
    if fault.concerns call then
      match fault.skip, fault.times with
      | skip + 1, _ => pass { fault with skip := skip }
      | 0, none => (some fault.error, fault :: rest)
      | 0, some (times + 1) => (some fault.error, { fault with times := some times } :: rest)
      | 0, some 0 => pass fault
    else pass fault

end Fault

structure Faulty (σ : Type) where
  faults : List Fault
  store : σ

/-- Let calls fail by the rules. A call that fails does not reach the store. -/
def Store.faulty {σ : Type} (store : Store σ) : Store (Faulty σ) := fun call f =>
  match Fault.intercept call f.faults with
  | (some error, faults) => (.error error, ⟨faults, f.store⟩)
  | (none, faults) =>
    let (reply, s) := store call f.store
    (reply, ⟨faults, s⟩)

end SegmentedFiles
