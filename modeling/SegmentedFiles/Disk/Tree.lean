import SegmentedFiles.Payload
import SegmentedFiles.Store.Error
import Std.Data.ExtTreeMap

/-! A tree of directories and files, and the operations on it that the operating system offers, each
failing as the system's does. A path is a list of names below the root of the tree. -/

namespace SegmentedFiles

inductive DiskEntry where
  | directory
  | file (content : Payload)

/-- A tree of directories and files. The root is a directory and has no entry of its own. -/
structure Disk where
  entries : Std.ExtTreeMap (List String) DiskEntry

namespace Disk

def empty : Disk := ⟨∅⟩

def entry? (d : Disk) (path : List String) : Option DiskEntry :=
  if path.isEmpty then some .directory else d.entries[path]?

def isDirectory (d : Disk) (path : List String) : Bool :=
  match d.entry? path with
  | some .directory => true
  | _ => false

def exists? (d : Disk) (path : List String) : Bool := (d.entry? path).isSome

def maxNameSize : Nat := 255

/-- What keeps the system from looking up the last name of a path: a name that is too long, or a name
before it that is not there or is no directory. `walked` has been found to be a directory. -/
def obstacle? (d : Disk) (walked : List String) : List String → Option DiskFailure
  | [] => none
  | name :: rest =>
    if maxNameSize < name.utf8ByteSize then some .nameTooLong
    else if rest.isEmpty then none
    else
      match d.entry? (walked ++ [name]) with
      | none => some .noEntry
      | some (.file _) => some .notDirectory
      | some .directory => d.obstacle? (walked ++ [name]) rest

/-- The entry at a path, or why there is none to be had. -/
def find (d : Disk) (path : List String) : Except DiskFailure DiskEntry :=
  match d.obstacle? [] path with
  | some failure => .error failure
  | none =>
    match d.entry? path with
    | some entry => .ok entry
    | none => .error .noEntry

/-- Make the directories of a path that are not there, from the root on. Those made before a failure
stay. -/
def makeDirectories (d : Disk) (path : List String) : Except DiskFailure Unit × Disk :=
  go d [] path
where
  go (d : Disk) (walked : List String) : List String → Except DiskFailure Unit × Disk
    | [] => (.ok (), d)
    | name :: rest =>
      let here := walked ++ [name]
      if maxNameSize < name.utf8ByteSize then (.error .nameTooLong, d)
      else
        match d.entry? here with
        | some .directory => go d here rest
        | some (.file _) => (.error (if rest.isEmpty then .exists else .notDirectory), d)
        | none => go ⟨d.entries.insert here .directory⟩ here rest

def readFile (d : Disk) (path : List String) : Except DiskFailure Payload :=
  match d.find path with
  | .ok (.file content) => .ok content
  | .ok .directory => .error .isDirectory
  | .error failure => .error failure

/-- Make a file in a directory that is there, or replace it. -/
def writeFile (d : Disk) (path : List String) (content : Payload) : Except DiskFailure Disk :=
  match d.find path with
  | .ok .directory => .error .isDirectory
  | .ok (.file _) => .ok ⟨d.entries.insert path (.file content)⟩
  | .error failure =>
    match d.obstacle? [] path with
    | some _ => .error failure
    | none => .ok ⟨d.entries.insert path (.file content)⟩

def removeFile (d : Disk) (path : List String) : Except DiskFailure Disk :=
  match d.find path with
  | .ok (.file _) => .ok ⟨d.entries.erase path⟩
  | .ok .directory => .error .isDirectory
  | .error failure => .error failure

/-- Move a file to another path, in the place of the file that is there. -/
def moveFile (d : Disk) (path target : List String) : Except DiskFailure Disk :=
  match d.readFile path with
  | .ok content => (Disk.mk (d.entries.erase path)).writeFile target content
  | .error failure => .error failure

/-- Whether anything lies below a path. Paths are kept in order, so what lies below a path comes right
after it. -/
def hasChildren (d : Disk) (path : List String) : Bool :=
  match d.entries.getKeyGT? path with
  | some next => path.isPrefixOf next
  | none => false

def removeDirectory (d : Disk) (path : List String) : Except DiskFailure Disk :=
  match d.find path with
  | .ok .directory =>
    if d.hasChildren path then .error .notEmpty else .ok ⟨d.entries.erase path⟩
  | .ok (.file _) => .error .notDirectory
  | .error failure => .error failure

/-- Remove directories in turn, up to the first that cannot be removed. -/
def removeDirectories (d : Disk) : List (List String) → Disk
  | [] => d
  | path :: rest =>
    match d.removeDirectory path with
    | .ok d => d.removeDirectories rest
    | .error _ => d

def removeTree (d : Disk) (path : List String) : Disk :=
  ⟨d.entries.filter fun other _ => !path.isPrefixOf other⟩

def below (d : Disk) (path : List String) : Disk :=
  ⟨d.entries.foldl (fun kept other entry =>
    if path.isPrefixOf other && other != path then kept.insert (other.drop path.length) entry
    else kept) ∅⟩

/-- Put another tree in the place of what is below a directory. -/
def graft (d : Disk) (path : List String) (tree : Disk) : Disk :=
  let kept := d.entries.filter fun other _ => !path.isPrefixOf other || other == path
  ⟨tree.entries.foldl (fun entries other entry => entries.insert (path ++ other) entry) kept⟩

/-- The text of a path; that of a directory ends in a slash. -/
def pathText (path : List String) : DiskEntry → String
  | .directory => "/".intercalate path ++ "/"
  | .file _ => "/".intercalate path

def listing (d : Disk) : List String :=
  (d.entries.toList.map fun e => pathText e.1 e.2).mergeSort

end Disk

end SegmentedFiles
