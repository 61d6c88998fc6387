import SegmentedFiles.Md5
import SegmentedFiles.Store.Call
import Std.Data.ExtTreeMap

/-! An object store that is held in memory. A manifest reads as its segments joined, listings give
its own empty content, and a copy of it is a plain object. Calls can be made to fail: writes after a
number of them, and bulk deletes. -/

namespace SegmentedFiles

structure StoredObject where
  content : Payload
  contentType : String
  lastModified : Timestamp
  etag : String
  manifest : Option ManifestRef

namespace StoredObject

def info (object : StoredObject) (name : String) (bytes : Nat) : ObjectInfo :=
  ⟨name, bytes, object.contentType, object.lastModified, some object.etag, object.manifest, false⟩

def entry (object : StoredObject) (name : String) : ObjectInfo :=
  { object.info name object.content.size with manifest := none }

end StoredObject

abbrev ObjectMap : Type := Std.ExtTreeMap String StoredObject

/-- How a bulk delete is made to fail: as a whole, or for each of its targets. -/
inductive BulkDeleteFault where
  | request
  | perObject
  deriving DecidableEq, Repr

structure MemoryStore where
  containers : Std.ExtTreeMap String ObjectMap
  /-- Whether bulk deletes are offered. -/
  bulkDelete : Bool
  /-- How many more writes succeed, where their number is limited. -/
  putBudget : Option Nat
  bulkFault : Option BulkDeleteFault
  /-- The number of bulk deletes asked for. -/
  bulkDeleteCalls : Nat
  /-- The time that objects written now are marked with. -/
  now : Timestamp

namespace MemoryStore

def empty (bulkDelete : Bool) (now : Timestamp) : MemoryStore :=
  ⟨∅, bulkDelete, none, none, 0, now⟩

/-- Let `count` more writes succeed and then fail each with status 503. -/
def failPutsAfter (m : MemoryStore) (count : Nat) : MemoryStore := { m with putBudget := some count }

def failBulkDeletes (m : MemoryStore) (fault : BulkDeleteFault) : MemoryStore :=
  { m with bulkFault := some fault }

def heal (m : MemoryStore) : MemoryStore := { m with putBudget := none, bulkFault := none }

/-- The objects of a container; none if there is no such container. -/
def objects (m : MemoryStore) (container : String) : ObjectMap := m.containers.getD container ∅

def object? (m : MemoryStore) (container name : String) : Option StoredObject :=
  (m.objects container)[name]?

def names (m : MemoryStore) (container : String) : List String := (m.objects container).keys

/-- The content of an object as read: of a manifest, that of its segments joined. -/
def resolve (m : MemoryStore) (object : StoredObject) : Payload :=
  match object.manifest with
  | none => object.content
  | some manifest =>
    (m.objects manifest.container).toList.foldl
      (fun content segment =>
        if Text.startsWith segment.1 manifest.start then content ++ segment.2.content else content)
      ByteArray.empty

def injected : StoreError := .status 503 "injected failure"

/-- Put an object into a container that exists. -/
def insert (m : MemoryStore) (container name : String) (content : Payload) (options : PutOptions) :
    Except StoreError MemoryStore :=
  match m.containers[container]? with
  | none => .error .notFound
  | some objects =>
    let object : StoredObject :=
      ⟨content, options.contentType, m.now, Md5.hexDigest content, options.manifest⟩
    .ok { m with containers := m.containers.insert container (objects.insert name object) }

def erase? (m : MemoryStore) (container name : String) : Option MemoryStore :=
  match m.containers[container]? with
  | none => none
  | some objects =>
    if objects.contains name then
      some { m with containers := m.containers.insert container (objects.erase name) }
    else none

/-- Use up one of the writes that still succeed. -/
def takePut (m : MemoryStore) : Except StoreError MemoryStore :=
  match m.putBudget with
  | none => .ok m
  | some 0 => .error injected
  | some (count + 1) => .ok { m with putBudget := some count }

def eraseAll (m : MemoryStore) : List ObjectTarget → BulkDeleteSummary → BulkDeleteSummary × MemoryStore
  | [], summary => (summary, m)
  | target :: rest, summary =>
    match m.erase? target.container target.name with
    | some m => m.eraseAll rest { summary with deleted := summary.deleted + 1 }
    | none => m.eraseAll rest { summary with notFound := summary.notFound + 1 }

def read (m : MemoryStore) (container name : String) (range : Option ByteRange) :
    Except StoreError Payload :=
  match m.object? container name with
  | none => .error .notFound
  | some object =>
    let content := m.resolve object
    match range with
    | none => .ok content
    | some range =>
      match range.resolve? content.size with
      | none => .error .rangeNotSatisfiable
      | some (start, stop) => .ok (content.extract start stop)

def answerBulk (m : MemoryStore) (targets : List ObjectTarget) :
    Except StoreError BulkDeleteSummary × MemoryStore :=
  if m.bulkDelete then
    let m := { m with bulkDeleteCalls := m.bulkDeleteCalls + 1 }
    match m.bulkFault with
    | some .request => (.error injected, m)
    | some .perObject =>
      (.ok ⟨0, 0, targets.map fun t => (t.container ++ "/" ++ t.name, "503 Service Unavailable")⟩, m)
    | none =>
      let (summary, m) := m.eraseAll targets BulkDeleteSummary.empty
      (.ok summary, m)
  else (.error (.unsupported "bulk delete"), m)

/-- What a call that may change the store returns, with the store after it. A call that fails leaves
the store as it was. -/
def orUnchanged (m : MemoryStore) (result : Except StoreError MemoryStore) :
    Except StoreError Unit × MemoryStore :=
  match result with
  | .ok m => (.ok (), m)
  | .error e => (.error e, m)

def answer : Store MemoryStore
  | .createContainer container, m =>
    (.ok (), if m.containers.contains container then m
      else { m with containers := m.containers.insert container ∅ })
  | .head container name, m =>
    (match m.object? container name with
      | none => .error .notFound
      | some object => .ok (object.info name (m.resolve object).size), m)
  | .get container name range, m => (m.read container name range, m)
  | .openFrom container name offset, m =>
    ((m.read container name (some (ByteRange.onward offset))).map fun content => ⟨content, none⟩, m)
  | .put container name body options, m =>
    match m.takePut with
    | .error e => (.error e, m)
    | .ok m => m.orUnchanged (m.insert container name body options)
  | .copy source target, m =>
    m.orUnchanged <|
      match m.object? source.container source.name with
      | none => .error .notFound
      | some object =>
        m.insert target.container target.name (m.resolve object) (PutOptions.plain object.contentType)
  | .delete container name, m =>
    m.orUnchanged <|
      match m.erase? container name with
      | none => .error .notFound
      | some m => .ok m
  | .bulkDelete targets, m => m.answerBulk targets
  | .list container options, m =>
    (match m.containers[container]? with
      | none => .error .notFound
      | some objects =>
        .ok (options.select (objects.toList.map fun o => (o.1, o.2.entry o.1))), m)
  | .capabilities, m => (.ok ⟨m.bulkDelete⟩, m)

end MemoryStore

end SegmentedFiles
