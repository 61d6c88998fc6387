import SegmentedFiles.Text.Name

/-! Paths of files. A path is absolute; a slash stands before each of its names. -/

namespace SegmentedFiles.Path

def isName (name : String) : Bool := name != "" && name != "." && name != ".."

/-- Whether this is the path of a file or of a directory other than the root. -/
def isBelowRoot (path : String) : Bool :=
  path != "/" &&
    match Text.after? "/" path with
    | some rest => (Text.splitAt '/' rest).all isName
    | none => false

def isValid (path : String) : Bool := path == "/" || isBelowRoot path

/-- The directory in which a path lies; that of the topmost is the root. -/
def parent (path : String) : String :=
  match Text.beforeLast? '/' path with
  | some before => if before.isEmpty then "/" else before
  | none => "/"

/-- The directories above a path other than the root, the nearest first. -/
def ancestors (path : String) : List String := go path.toList.length (parent path)
where
  /-- Go up at most `fuel` steps; each makes the path shorter. -/
  go : Nat → String → List String
    | 0, _ => []
    | fuel + 1, dir => if dir == "/" then [] else dir :: go fuel (parent dir)

end SegmentedFiles.Path
