import SegmentedFiles.Object.Manifest
import SegmentedFiles.Time.Timestamp

/-! What a store tells of an object. -/

namespace SegmentedFiles

/-- The description of an object. Asked for by name it has the size of the whole content, for a
manifest that of its segments together; in a listing it has the size of the object's own content, and
no manifest reference. -/
structure ObjectInfo where
  name : String
  bytes : Nat
  contentType : String
  lastModified : Timestamp
  etag : Option String
  manifest : Option ManifestRef
  /-- Stands in a listing for all names that share a start; there is no object of this name. -/
  pseudoDirectory : Bool
  deriving DecidableEq, Repr

/-- The listing entry that stands for all names starting with `name`. -/
def ObjectInfo.group (name : String) : ObjectInfo :=
  ⟨name, 0, "", Timestamp.epoch, none, none, true⟩

structure ObjectTarget where
  container : String
  name : String
  deriving DecidableEq, Repr

namespace ObjectTarget

/-- Targets are ordered by container, then by name, each by code points. -/
instance : Ord ObjectTarget where
  compare a b := (compare a.container b.container).then (compare a.name b.name)

def sort (targets : List ObjectTarget) : List ObjectTarget :=
  targets.mergeSort fun a b => (compare a b).isLE

end ObjectTarget

end SegmentedFiles
