import SegmentedFiles.Segment.Name
import SegmentedFiles.Store.Call
import SegmentedFiles.Text.Quoted
import SegmentedFiles.Volume.Error
import SegmentedFiles.Volume.Path

/-! Volumes: trees of files kept in a container of an object store. A path is one object's name, below
a name of the volume's own. A directory is an object with a content type of its own and no content. -/

namespace SegmentedFiles

structure VolumeOptions where
  container : String
  /-- Comes before every object's name. Slashes at its ends do not count. -/
  root : String
  chunkSize : Nat
  deriving DecidableEq, Repr

/-- A tree of files in a container of an object store. -/
structure Volume where
  container : String
  /-- Comes before every object's name. Slashes at its ends do not count. -/
  root : String
  /-- The size of every segment of a file but the last. -/
  chunkSize : Nat
  chunkSize_pos : 0 < chunkSize
  /-- Whether trees are deleted with bulk deletes. -/
  bulkDelete : Bool

/-- A program on a store that may fail as operations on files do. -/
abbrev VolumeAction (α : Type) : Type :=
  ExceptT VolumeError (Interaction StoreCall StoreCall.Reply) α

/-- Make a call; where it fails, so does the operation at `path`. -/
def StoreCall.at (call : StoreCall) (path : String) : VolumeAction call.Answer :=
  ExceptT.mk (Interaction.bind call.make fun reply => .done (reply.mapError (VolumeError.ofStore path)))

/-- Make a call and look at the outcome, whatever it is. -/
def StoreCall.try (call : StoreCall) : VolumeAction call.Reply := ExceptT.lift call.make

namespace Volume

def fileType : String := "application/octet-stream"

def directoryType : String := "application/directory"

/-- Segments of this size are made unless another is asked for. -/
def defaultChunkSize : Nat := 20 * 1024 * 1024

/-- The smallest size of segments that can be asked for from outside. -/
def minChunkSize : Nat := 1024 * 1024

def segmentsContainer (v : Volume) : String := Segment.containerOf v.container

def storeName (v : Volume) (path : String) : String :=
  Text.trimStart '/' (Text.trimEnd '/' v.root ++ path)

/-- The name of the object at a path without slashes at its end, as the names below it start. It is
empty for the root of a volume that has no name of its own. -/
def storeDirectory (v : Volume) (path : String) : String := Text.trimEnd '/' (v.storeName path)

def logicalPath (v : Volume) (name : String) : String :=
  let name := Text.trimEnd '/' name
  let root := Text.trim '/' v.root
  let below := if root.isEmpty then name else (Text.after? root name).getD name
  "/" ++ Text.trimStart '/' below

/-- Go on only if `path` is the path of something, or the root where that is allowed. -/
def checkPath (path : String) (allowRoot : Bool) : VolumeAction Unit :=
  if Path.isBelowRoot path || (allowRoot && path == "/") then pure ()
  else throw (.invalidPath path)

/-- Make both containers where they are missing, and find out what the store can do. A store that does
not say is taken to have no bulk delete. -/
def create (options : VolumeOptions) : VolumeAction Volume := do
  if options.container.isEmpty then
    throw (.invalidOption "container must not be empty")
  if h : options.chunkSize = 0 then
    throw (.invalidOption "chunk size must be greater than zero")
  else
    for container in [options.container, Segment.containerOf options.container] do
      match ← (StoreCall.createContainer container).try with
      | .ok () => pure ()
      | .error e => throw (.store container e)
    let bulkDelete ← match ← StoreCall.capabilities.try with
      | .ok capabilities => pure capabilities.bulkDelete
      | .error _ => pure false
    return ⟨options.container, options.root, options.chunkSize, Nat.pos_of_ne_zero h, bulkDelete⟩

def text (v : Volume) : String :=
  Quoted.record "Driver"
    [("container", Quoted.text v.container), ("segments_container", Quoted.text v.segmentsContainer),
      ("prefix", Quoted.text v.root), ("chunk_size", v.chunkSize.repr),
      ("bulk_delete", if v.bulkDelete then "true" else "false")] false

def readAll (v : Volume) (path : String) : VolumeAction Payload := do
  checkPath path false
  (StoreCall.get v.container (v.storeName path) none).at path

/-- The content of a file from an offset on. At or past its end there is none. -/
def readFrom (v : Volume) (path : String) (offset : Nat) : VolumeAction ByteStream := do
  checkPath path false
  match ← (StoreCall.openFrom v.container (v.storeName path) offset).try with
  | .ok stream => return stream
  | .error .rangeNotSatisfiable => return ⟨ByteArray.empty, none⟩
  | .error e => throw (.ofStore path e)

structure FileInfo where
  path : String
  size : Nat
  isDirectory : Bool
  modified : Timestamp
  deriving DecidableEq, Repr

def stat (v : Volume) (path : String) : VolumeAction FileInfo := do
  checkPath path false
  let info ← (StoreCall.head v.container (v.storeName path)).at path
  return ⟨path, info.bytes, info.contentType == directoryType, info.lastModified⟩

def children (v : Volume) (path : String) : VolumeAction (List String) := do
  checkPath path true
  let directory := v.storeDirectory path
  let start := if directory.isEmpty then directory else directory ++ "/"
  let infos ← (StoreCall.list v.container (ListOptions.folded start '/')).at path
  let paths := (infos.filter fun info => !info.pseudoDirectory).map fun info => v.logicalPath info.name
  if paths.isEmpty && path != "/" then
    -- Nothing lies below a directory that is empty; but it has to be there.
    let _ ← (StoreCall.head v.container (v.storeName path)).at path
  return paths

/-- There are no links to files of a volume. -/
def urlFor (_ : Volume) (_path : String) : VolumeAction String := throw .unsupported

/-- A path at which nothing is expected. -/
def probePath : String := "/.segment-fs-readiness"

def checkReachable (v : Volume) : VolumeAction Unit := do
  match ← (StoreCall.head v.container (v.storeName probePath)).try with
  | .ok _ => pure ()
  | .error .notFound => pure ()
  | .error e => throw (.store probePath e)

/-- The manifest reference of the object called `name`, if there is such an object. -/
def manifestAt (v : Volume) (path name : String) : VolumeAction (Option ManifestRef) := do
  match ← (StoreCall.head v.container name).try with
  | .ok info => return info.manifest
  | .error .notFound => return none
  | .error e => throw (.ofStore path e)

/-- Make the directories above `path` that are missing, the nearest first. Nothing can lie below a
file. -/
def makeParents (v : Volume) (path : String) : VolumeAction Unit :=
  for directory in Path.ancestors path do
    let name := v.storeName directory
    match ← (StoreCall.head v.container name).try with
    | .ok info => if info.contentType != directoryType then throw (.invalidPath path)
    | .error .notFound =>
      (StoreCall.put v.container name ByteArray.empty (PutOptions.plain directoryType)).at directory
    | .error e => throw (.ofStore directory e)

end Volume

end SegmentedFiles
