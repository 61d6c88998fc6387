import SegmentedFiles.Volume.Basic

/-! Removing trees, and the segments of files. -/

namespace SegmentedFiles.Volume

/-- Delete an object; one that is not there is not missed. -/
def deleteQuietly (container name path : String) : VolumeAction Unit := do
  match ← (StoreCall.delete container name).try with
  | .ok () => pure ()
  | .error .notFound => pure ()
  | .error e => throw (.ofStore path e)

def removeSegments (path : String) (manifest : ManifestRef) : VolumeAction Unit := do
  match ← (StoreCall.list manifest.container (ListOptions.all manifest.start)).try with
  | .error .notFound => pure ()
  | .error e => throw (.ofStore path e)
  | .ok infos =>
    for info in infos.filter fun info => Segment.belongsTo manifest info.name do
      deleteQuietly manifest.container info.name info.name

/-- Delete the object called `name`, its segments first. One that is not there is passed over. -/
def removeObject (v : Volume) (name : String) : VolumeAction Unit := do
  let path := v.logicalPath name
  match ← (StoreCall.head v.container name).try with
  | .error .notFound => pure ()
  | .error e => throw (.ofStore path e)
  | .ok info =>
    if let some manifest := info.manifest then
      removeSegments path manifest
    deleteQuietly v.container name path

def bulkDeleteBatch : Nat := 10000

def batches {α : Type} (size : Nat) (xs : List α) : List (List α) := go xs.length xs
where
  /-- Cut off at most `fuel` lists. -/
  go : Nat → List α → List (List α)
    | 0, _ => []
    | fuel + 1, xs => if xs.isEmpty then [] else xs.take size :: go fuel (xs.drop size)

/-- Delete the objects called `names`, and all segments under `base`, with bulk deletes. -/
def removeInBulk (v : Volume) (path base : String) (names : List String) : VolumeAction Unit := do
  let start := if base.isEmpty then "" else base ++ "/"
  let segments ← (StoreCall.list v.segmentsContainer (ListOptions.all start)).at path
  let targets := names.map (ObjectTarget.mk v.container)
    ++ segments.map fun info => ObjectTarget.mk v.segmentsContainer info.name
  let mut failed := 0
  for batch in batches bulkDeleteBatch targets do
    let summary ← (StoreCall.bulkDelete batch).at path
    failed := failed + summary.errors.length
  if failed != 0 then throw (.store path (.bulkDelete failed))

/-- Delete what is at `path` and below it, with the segments of all files. Where bulk deletes fail,
objects are deleted one by one. -/
def remove (v : Volume) (path : String) : VolumeAction Unit := do
  checkPath path true
  let base := v.storeDirectory path
  let infos ← (StoreCall.list v.container (ListOptions.all base)).at path
  let names := (infos.map ObjectInfo.name).filter fun name =>
    base.isEmpty || name == base || Text.startsWith name (base ++ "/")
  if names.isEmpty then throw (.pathNotFound path)
  let removed ← if v.bulkDelete then
      try
        v.removeInBulk path base names
        pure true
      catch _ => pure false
    else pure false
  unless removed do
    for name in names do
      v.removeObject name

end SegmentedFiles.Volume
