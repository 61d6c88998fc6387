import SegmentedFiles.Disk.Tree
import SegmentedFiles.Local.Names
import SegmentedFiles.Object.Record
import SegmentedFiles.Store.Call
import Std.Data.ExtTreeMap

/-! An object store on disk: a table of containers and objects, and a file for the content of each
object. The table says what there is. Where a file is missing or cannot be read, reading fails. -/

namespace SegmentedFiles

abbrev RecordMap : Type := Std.ExtTreeMap String ObjectRecord

structure LocalStore where
  containers : Std.ExtTreeMap String RecordMap
  disk : Disk
  /-- The time that objects written now are marked with. -/
  now : Timestamp

namespace LocalStore

open Local

def empty (now : Timestamp) : LocalStore := ⟨∅, Disk.empty, now⟩

/-- The rows of a container; none if there is no such container. -/
def records (s : LocalStore) (container : String) : RecordMap := s.containers.getD container ∅

def record (s : LocalStore) (container name : String) : Except StoreError ObjectRecord :=
  match (s.records container)[name]? with
  | some record => .ok record
  | none => .error .notFound

def recordsFrom (s : LocalStore) (container start : String) : List ObjectRecord :=
  (s.records container).values.filter fun record => Text.startsWith record.name start

/-- What a call fails with when a file operation does. A file that is not there is an object that is
not there. -/
def ofDiskFailure : DiskFailure → StoreError
  | .noEntry => .notFound
  | failure => .io (.disk failure)

/-- Go on only if there is a container of this name, which has to be a name for one. -/
def checkContainer (s : LocalStore) (container : String) : Except StoreError Unit :=
  if !isContainerName container then .error (.invalidName container)
  else if s.containers.contains container then .ok ()
  else .error .notFound

def readPayload (s : LocalStore) (record : ObjectRecord) : Except StoreError Payload :=
  (s.disk.readFile (payloadPath record.container record.name)).mapError ofDiskFailure

/-- The content of an object as read: of a manifest, that of its segments joined. -/
def resolve (s : LocalStore) (record : ObjectRecord) : Except StoreError Payload :=
  match record.manifestRef? with
  | none => s.readPayload record
  | some manifest =>
    (s.recordsFrom manifest.container manifest.start).foldlM
      (fun content segment => return content ++ (← s.readPayload segment)) ByteArray.empty

def size (s : LocalStore) (record : ObjectRecord) : Nat :=
  match record.manifestRef? with
  | none => record.bytes
  | some manifest =>
    let total : Int := (s.recordsFrom manifest.container manifest.start).foldl
      (fun total segment => total + segment.size) 0
    total.toNat

def slice (content : Payload) (range : ByteRange) : Except StoreError Payload :=
  match range.resolve? content.size with
  | some (start, stop) => .ok (content.extract start stop)
  | none => .error .rangeNotSatisfiable

def read (s : LocalStore) (container name : String) (range : Option ByteRange) :
    Except StoreError Payload := do
  let content ← s.resolve (← s.record container name)
  match range with
  | some range => slice content range
  | none => return content

/-- An object's content from an offset on. Plain content is read from its file while it is delivered,
and a directory in the place of the file is not noticed before. -/
def openFrom (s : LocalStore) (container name : String) (offset : Nat) :
    Except StoreError ByteStream := do
  let record ← s.record container name
  if record.manifest.isSome then
    return ⟨← slice (← s.resolve record) (ByteRange.onward offset), none⟩
  if ((ByteRange.onward offset).resolve? record.bytes).isNone then throw .rangeNotSatisfiable
  match s.disk.find (payloadPath container name) with
  | .ok (.file content) => return ⟨content.extract offset content.size, none⟩
  | .ok .directory => return ⟨ByteArray.empty, some (.disk .isDirectory)⟩
  | .error failure => throw (ofDiskFailure failure)

/-- Store content in the file of an object, for which directories are made. The content is written
under another name first and takes the file's place as a whole. Directories made before a failure
stay. -/
def writePayload (s : LocalStore) (container name : String) (content : Payload) :
    Except StoreError Unit × LocalStore :=
  let (made, disk) := s.disk.makeDirectories (payloadDirectory container name)
  match made with
  | .error failure => (.error (.io (.disk failure)), { s with disk })
  | .ok () =>
    let draft := draftPath container name
    match disk.writeFile draft content with
    | .error failure => (.error (.io (.disk failure)), { s with disk })
    | .ok disk =>
      match disk.moveFile draft (payloadPath container name) with
      | .error failure =>
        let cleared := match disk.removeFile draft with
          | .ok disk => disk
          | .error _ => disk
        (.error (.io (.disk failure)), { s with disk := cleared })
      | .ok disk => (.ok (), { s with disk })

def insert (s : LocalStore) (container name : String) (content : Payload) (options : PutOptions) :
    Except StoreError Unit × LocalStore :=
  if !isObjectName name then (.error (.invalidName name), s)
  else
    match s.checkContainer container with
    | .error e => (.error e, s)
    | .ok () =>
      match s.writePayload container name content with
      | (.error e, s) => (.error e, s)
      | (.ok (), s) =>
        let record : ObjectRecord :=
          ⟨container, name, content.size, options.contentType, Md5.hexDigest content, s.now,
            options.manifest.map ManifestRef.header⟩
        (.ok (), { s with
          containers := s.containers.insert container ((s.records container).insert name record) })

/-- Take an object's row away, then its file, and the directories that are empty without it. -/
def erase (s : LocalStore) (container name : String) : Except StoreError Unit × LocalStore :=
  if (s.records container).contains name then
    let s := { s with
      containers := s.containers.insert container ((s.records container).erase name) }
    let prune (disk : Disk) : LocalStore :=
      { s with disk := disk.removeDirectories (prunable container name) }
    match s.disk.removeFile (payloadPath container name) with
    | .ok disk => (.ok (), prune disk)
    | .error .noEntry => (.ok (), prune s.disk)
    | .error failure => (.error (.io (.disk failure)), s)
  else (.error .notFound, s)

def eraseAll (s : LocalStore) : List ObjectTarget → BulkDeleteSummary → BulkDeleteSummary × LocalStore
  | [], summary => (summary, s)
  | target :: rest, summary =>
    match s.erase target.container target.name with
    | (.ok (), s) => s.eraseAll rest { summary with deleted := summary.deleted + 1 }
    | (.error .notFound, s) => s.eraseAll rest { summary with notFound := summary.notFound + 1 }
    | (.error e, s) =>
      s.eraseAll rest { summary with errors := summary.errors ++ [(target.name, e.message)] }

def createContainer (s : LocalStore) (container : String) : Except StoreError Unit × LocalStore :=
  if !isContainerName container then (.error (.invalidName container), s)
  else
    match s.disk.makeDirectories (containerPath container) with
    | (.error failure, disk) => (.error (.io (.disk failure)), { s with disk })
    | (.ok (), disk) =>
      (.ok (), { s with disk, containers := s.containers.insertIfNew container ∅ })

def answer : Store LocalStore
  | .createContainer container, s => s.createContainer container
  | .head container name, s =>
    ((s.record container name).map fun record => { record.info with bytes := s.size record }, s)
  | .get container name range, s => (s.read container name range, s)
  | .openFrom container name offset, s => (s.openFrom container name offset, s)
  | .put container name body options, s => s.insert container name body options
  | .copy source target, s =>
    match s.record source.container source.name with
    | .error e => (.error e, s)
    | .ok record =>
      match s.resolve record with
      | .error e => (.error e, s)
      | .ok content =>
        s.insert target.container target.name content (PutOptions.plain record.contentType)
  | .delete container name, s => s.erase container name
  | .bulkDelete targets, s =>
    let (summary, s) := s.eraseAll targets BulkDeleteSummary.empty
    (.ok summary, s)
  | .list container options, s =>
    ((s.checkContainer container).map fun () =>
      options.select ((s.records container).toList.map fun r => (r.1, r.2.entry)), s)
  | .capabilities, s => (.ok ⟨true⟩, s)

end LocalStore

end SegmentedFiles
