import SegmentedFiles.Volume.Remove

/-! Whole files: storing a file in one piece, and moving one. -/

namespace SegmentedFiles.Volume

/-- Store `content` as one object. The segments of a file that it replaces are deleted after it. -/
def writeAll (v : Volume) (path : String) (content : Payload) : VolumeAction Unit := do
  checkPath path false
  v.makeParents path
  let name := v.storeName path
  let previous ← v.manifestAt path name
  (StoreCall.put v.container name content (PutOptions.plain fileType)).at path
  if let some manifest := previous then
    removeSegments path manifest

/-- Move a file: copy its content, delete it, and then delete the segments that it had and those of a
file that it replaced. -/
def move (v : Volume) (source target : String) : VolumeAction Unit := do
  checkPath source false
  checkPath target false
  let sourceName := v.storeName source
  let targetName := v.storeName target
  let info ← (StoreCall.head v.container sourceName).at source
  if sourceName == targetName then return ()
  v.makeParents target
  let replaced ← v.manifestAt target targetName
  (StoreCall.copy ⟨v.container, sourceName⟩ ⟨v.container, targetName⟩).at source
  (StoreCall.delete v.container sourceName).at source
  if let some manifest := info.manifest then
    removeSegments source manifest
  if let some manifest := replaced then
    removeSegments target manifest

end SegmentedFiles.Volume
