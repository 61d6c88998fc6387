import SegmentedFiles.Object.Manifest
import SegmentedFiles.Text.Decimal

/-! Names of segments. The segments of the object `n` of a container lie in a container of their own,
under the names `n/0000000000000001`, `n/0000000000000002` and so on. -/

namespace SegmentedFiles.Segment

/-- The container for the segments of the objects in `container`. -/
def containerOf (container : String) : String := container ++ "_segments"

def width : Nat := 16

/-- How the names of the segments of `object` start. -/
def start (object : String) : String := object ++ "/"

/-- The name of the segment of `object` with number `sequence`. -/
def name (object : String) (sequence : Nat) : String :=
  object ++ "/" ++ Decimal.padded width sequence

/-- The number of the segment called `name`, if the name is `start` and a segment number. -/
def sequence? (start name : String) : Option Nat :=
  match Text.after? start name with
  | some rest =>
    let ds := rest.toList
    if ds.length = width ∧ ds.all Char.isDigit then some (Decimal.value ds) else none
  | none => none

/-- Whether the object called `name` is one of the segments that a manifest refers to: after the start
of the names, and slashes, a number follows. -/
def belongsTo (manifest : ManifestRef) (name : String) : Bool :=
  match Text.after? manifest.start name with
  | some rest =>
    let ds := (Text.trimStart '/' rest).toList
    !ds.isEmpty && ds.all Char.isDigit
  | none => false

end SegmentedFiles.Segment
