import SegmentedFiles.Text.Name

/-! Manifest references. An object that carries one has no content of its own: reading it yields, in
name order, the content of every object of a container whose name starts with a given text. -/

namespace SegmentedFiles

/-- Where the segments of a manifest are: a container, and how their names start. -/
structure ManifestRef where
  container : String
  start : String
  deriving DecidableEq, Repr

namespace ManifestRef

/-- The written form: the container and the start of the names, parted by a slash. -/
def header (m : ManifestRef) : String := m.container ++ "/" ++ m.start

/-- Read the written form. The container ends at the first slash and is not empty. -/
def ofHeader? (text : String) : Option ManifestRef :=
  match Text.splitFirst? '/' text with
  | some (container, start) => if container.isEmpty then none else some ⟨container, start⟩
  | none => none

end ManifestRef

end SegmentedFiles
