import SegmentedFiles.Volume.Remove

/-! Files that are kept in segments: how one comes to be, and the segments it has. -/

namespace SegmentedFiles.Volume

def manifestRef (v : Volume) (name : String) : ManifestRef := ⟨v.segmentsContainer, Segment.start name⟩

/-- Make the object called `name` a manifest. -/
def putManifest (v : Volume) (path name : String) : VolumeAction Unit :=
  (StoreCall.put v.container name ByteArray.empty ⟨fileType, some (v.manifestRef name)⟩).at path

structure SegmentEntry where
  sequence : Nat
  name : String
  length : Nat
  deriving DecidableEq, Repr

/-- The segments of the object called `name`, by number. -/
def segments (v : Volume) (path name : String) : VolumeAction (List SegmentEntry) := do
  let start := Segment.start name
  let infos ← (StoreCall.list v.segmentsContainer (ListOptions.all start)).at path
  let entries := infos.filterMap fun info =>
    (Segment.sequence? start info.name).map fun sequence => ⟨sequence, info.name, info.bytes⟩
  return entries.mergeSort fun a b => a.sequence ≤ b.sequence

/-- Delete the segments that an earlier object called `name` has left behind. -/
def clearSegments (v : Volume) (path name : String) : VolumeAction Unit := do
  for segment in ← v.segments path name do
    deleteQuietly v.segmentsContainer segment.name path

/-- The pieces of `content` from `start` on, each as long as a chunk but the last. -/
def chunksFrom (chunk : Nat) (content : Payload) (start : Nat) : List Payload :=
  go (content.size - start) start
where
  /-- At most `fuel` pieces. -/
  go : Nat → Nat → List Payload
    | 0, _ => []
    | fuel + 1, start =>
      if start < content.size then
        let stop := min (start + chunk) content.size
        content.extract start stop :: go fuel stop
      else []

def putSegments (v : Volume) (path name : String) (sequence : Nat) :
    List Payload → VolumeAction Unit
  | [] => pure ()
  | piece :: rest => do
    (StoreCall.put v.segmentsContainer (Segment.name name sequence) piece
      (PutOptions.plain fileType)).at path
    v.putSegments path name (sequence + 1) rest

/-- Keep a plain object's content in segments instead, and return their lengths. -/
def convert (v : Volume) (path name : String) (size : Nat) : VolumeAction (List Nat) := do
  let content ← if size = 0 then pure ByteArray.empty
    else (StoreCall.get v.container name none).at path
  v.clearSegments path name
  let pieces := chunksFrom v.chunkSize content 0
  v.putSegments path name 1 pieces
  v.putManifest path name
  return pieces.map ByteArray.size

/-- See to it that the file at `path` is kept in segments, and return their lengths. -/
def prepare (v : Volume) (path : String) : VolumeAction (List Nat) := do
  let name := v.storeName path
  match ← (StoreCall.head v.container name).try with
  | .error .notFound =>
    v.makeParents path
    v.clearSegments path name
    v.putManifest path name
    return []
  | .error e => throw (.ofStore path e)
  | .ok info =>
    if info.manifest.isSome then
      return (← v.segments path name).map SegmentEntry.length
    else if info.contentType == directoryType then
      throw (.invalidPath path)
    else
      v.convert path name info.bytes

end SegmentedFiles.Volume
