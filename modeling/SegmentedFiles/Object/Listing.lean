import SegmentedFiles.Object.Info

/-! Listings of a container: which names are asked for, and how names that share a start up to a
delimiter fold into one entry. -/

namespace SegmentedFiles

/-- The names wanted are those that start with `start`. With a delimiter, those that have it after
`start` are folded into one entry for each text up to and including it. -/
structure ListOptions where
  start : String
  delimiter : Option Char
  deriving DecidableEq, Repr

namespace ListOptions

def all (start : String) : ListOptions := ⟨start, none⟩

def folded (start : String) (delimiter : Char) : ListOptions := ⟨start, some delimiter⟩

/-- The entry into which `name` is folded: the name up to and including the first delimiter after
`start`, if there is one. -/
def group? (name start : String) (delimiter : Char) : Option String :=
  match Text.after? start name with
  | none => none
  | some rest =>
    match Text.splitFirst? delimiter rest with
    | some (before, _) => some (start ++ before ++ String.singleton delimiter)
    | none => none

/-- The entries of objects with their listed descriptions, given in name order. The entry of a group is
written where the first name of the group is met. -/
def entries (options : ListOptions) (objects : List (String × ObjectInfo)) : List ObjectInfo :=
  go [] objects
where
  /-- `groups` are those that have their entry already. -/
  go (groups : List String) : List (String × ObjectInfo) → List ObjectInfo
    | [] => []
    | (name, info) :: rest =>
      match options.delimiter.bind (group? name options.start) with
      | some group =>
        if group ∈ groups then go groups rest
        else ObjectInfo.group group :: go (group :: groups) rest
      | none => info :: go groups rest

def select (options : ListOptions) (objects : List (String × ObjectInfo)) : List ObjectInfo :=
  options.entries (objects.filter fun object => Text.startsWith object.1 options.start)

end ListOptions

end SegmentedFiles
