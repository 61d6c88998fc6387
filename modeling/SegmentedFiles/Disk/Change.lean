import SegmentedFiles.Disk.Tree

/-! What has to be done to a tree of files to make it another one. -/

namespace SegmentedFiles

namespace DiskEntry

def sameKind : DiskEntry → DiskEntry → Bool
  | .directory, .directory => true
  | .file _, .file _ => true
  | _, _ => false

def same : DiskEntry → DiskEntry → Bool
  | .directory, .directory => true
  | .file a, .file b => a == b
  | _, _ => false

end DiskEntry

inductive DiskChange where
  | remove (path : List String) (entry : DiskEntry)
  /-- Make an entry, or give a file other content. -/
  | provide (path : List String) (entry : DiskEntry)

/-- The steps from one tree to another. What lies below a directory is removed before it and made after
it: a directory comes before what is below it in the order of paths. -/
def Disk.changes (before after : Disk) : List DiskChange :=
  let gone := before.entries.toList.filter fun (path, entry) =>
    !(after.entries[path]?).any entry.sameKind
  let fresh := after.entries.toList.filter fun (path, entry) =>
    !(before.entries[path]?).any entry.same
  gone.reverse.map (fun (path, entry) => .remove path entry)
    ++ fresh.map fun (path, entry) => .provide path entry

end SegmentedFiles
