import SegmentedFiles.Disk.Tree
import SegmentedFiles.Text.Name

/-! Paths as they are written, and how the operating system walks them: name by name, from the root or
from a directory. Each place on the way has to be a directory that is there, also where the next step
leads up again. -/

namespace SegmentedFiles

inductive PathEnd where
  /-- A name, or a step up. -/
  | name
  /-- A slash, so that what is there has to be a directory. -/
  | slash
  /-- A step to the place itself, which has to be a directory that is there. -/
  | place
  deriving DecidableEq, Repr

structure WrittenPath where
  /-- Whether the walk starts at the root. -/
  fromRoot : Bool
  /-- The names on the way; two dots lead up. -/
  steps : List String
  ending : PathEnd
  /-- The size of the text in bytes. -/
  size : Nat
  deriving DecidableEq, Repr

namespace WrittenPath

def ofText (text : String) : WrittenPath :=
  let pieces := Text.splitAt '/' text
  let names := pieces.filter fun piece => piece != ""
  let ending : PathEnd :=
    if names.getLast? = some "." then .place
    else if pieces.getLast? = some "" then .slash
    else .name
  ⟨Text.startsWith text "/", names.filter fun name => name != ".", ending, text.utf8ByteSize⟩

def maxSize : Nat := 4095

def sizeFault? (path : WrittenPath) : Option DiskFailure :=
  if path.size = 0 then some .noEntry
  else if maxSize < path.size then some .nameTooLong
  else none

def start (path : WrittenPath) (current : List String) : List String :=
  if path.fromRoot then [] else current

/-- The place that the path leads to if all on the way are directories. -/
def place (path : WrittenPath) (current : List String) : List String :=
  path.steps.foldl (fun names step => if step = ".." then names.dropLast else names ++ [step])
    (path.start current)

end WrittenPath

namespace Disk

def walk (d : Disk) (place : List String) : List String → Except DiskFailure (List String)
  | [] => .ok place
  | step :: rest =>
    if !d.isDirectory place then .error .notDirectory
    else if step = ".." then d.walk place.dropLast rest
    else if maxNameSize < step.utf8ByteSize then .error .nameTooLong
    else if d.exists? (place ++ [step]) then d.walk (place ++ [step]) rest
    else .error .noEntry

/-- What a written path leads to. -/
def look (d : Disk) (current : List String) (path : WrittenPath) : Except DiskFailure DiskEntry := do
  if let some failure := path.sizeFault? then throw failure
  match d.entry? (← d.walk (path.start current) path.steps), path.ending with
  | none, _ => throw .noEntry
  | some (.file _), .slash | some (.file _), .place => throw .notDirectory
  | some entry, _ => return entry

/-- Make the directories of a written path that are not there. Those made before a failure stay. -/
def provide (d : Disk) (current : List String) (path : WrittenPath) :
    Except DiskFailure Unit × Disk :=
  if path.size = 0 then (.ok (), d)
  else match path.sizeFault? with
    | some failure => (.error failure, d)
    | none => go d (path.start current) false path.steps
where
  /-- Go on from a place; `making` when a directory has been made on the way. -/
  go (d : Disk) (place : List String) (making : Bool) : List String → Except DiskFailure Unit × Disk
    | [] => (.ok (), d)
    | step :: rest =>
      if step = ".." then go d place.dropLast making rest
      else if maxNameSize < step.utf8ByteSize then (.error .nameTooLong, d)
      else
        let here := place ++ [step]
        let byDot := rest.isEmpty && path.ending == .place
        match d.entry? here with
        | some .directory => go d here making rest
        | some (.file _) =>
          (.error (if !byDot && (rest.isEmpty || making) then .exists else .notDirectory), d)
        | none =>
          if byDot then (.error .noEntry, d)
          else go ⟨d.entries.insert here .directory⟩ here true rest

/-- Make an empty file where a written path leads to, if nothing is there. -/
def provideFile (d : Disk) (current : List String) (path : WrittenPath) : Except DiskFailure Disk := do
  if let some failure := path.sizeFault? then throw failure
  let directory ← d.walk (path.start current) path.steps.dropLast
  if !d.isDirectory directory then throw .notDirectory
  match path.steps.getLast?, path.ending with
  | some name, .name =>
    if name = ".." then throw .isDirectory
    match d.find (directory ++ [name]) with
    | .ok (.file _) => return d
    | _ => d.writeFile (directory ++ [name]) ByteArray.empty
  | _, _ => throw .isDirectory

end Disk

end SegmentedFiles
