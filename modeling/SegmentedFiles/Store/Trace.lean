import SegmentedFiles.Store.Call

/-! Calls in words, and a store that keeps a record of the calls made on it. -/

namespace SegmentedFiles

namespace StoreCall

def method : StoreCall → String
  | .createContainer _ => "create"
  | .head _ _ => "head"
  | .get _ _ _ => "get"
  | .openFrom _ _ _ => "open"
  | .put _ _ _ _ => "put"
  | .copy _ _ => "copy"
  | .delete _ _ => "delete"
  | .bulkDelete _ => "bulk"
  | .list _ _ => "list"
  | .capabilities => "capabilities"

/-- The container and the name that a call is about: of a copy its source, of a listing the start of
the names wanted. -/
def subject : StoreCall → ObjectTarget
  | .createContainer container => ⟨container, ""⟩
  | .head container name => ⟨container, name⟩
  | .get container name _ => ⟨container, name⟩
  | .openFrom container name _ => ⟨container, name⟩
  | .put container name _ _ => ⟨container, name⟩
  | .copy source _ => source
  | .delete container name => ⟨container, name⟩
  | .bulkDelete _ => ⟨"", ""⟩
  | .list container options => ⟨container, options.start⟩
  | .capabilities => ⟨"", ""⟩

def details : StoreCall → String
  | .get _ _ (some range) => " " ++ range.text
  | .openFrom _ _ offset => " " ++ offset.repr
  | .put _ _ body options =>
    " " ++ body.size.repr ++ " " ++ options.contentType
      ++ match options.manifest with
        | some manifest => " -> " ++ manifest.header
        | none => ""
  | .copy _ target => " to " ++ target.container ++ "/" ++ target.name
  | .bulkDelete targets => String.join (targets.map fun t => " " ++ t.container ++ "/" ++ t.name)
  | .list _ ⟨_, some delimiter⟩ => " by " ++ String.singleton delimiter
  | _ => ""

def text (call : StoreCall) : String :=
  call.method ++ " " ++ call.subject.container ++ "/" ++ call.subject.name ++ call.details

end StoreCall

/-- A store together with the calls made on it, the latest first. -/
structure Recorded (σ : Type) where
  calls : List StoreCall
  store : σ

def Store.recorded {σ : Type} (store : Store σ) : Store (Recorded σ) := fun call r =>
  let (reply, s) := store call r.store
  (reply, ⟨call :: r.calls, s⟩)

end SegmentedFiles
