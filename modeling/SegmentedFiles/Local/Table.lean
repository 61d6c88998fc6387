import SegmentedFiles.Json.Columns
import SegmentedFiles.Local.Store

/-! The form in which the table of a store on disk is kept while the store is not open. -/

namespace SegmentedFiles.LocalStore

/-- The table as JSON: the names of the containers, and the rows of all objects. -/
def table (s : LocalStore) : Json :=
  .object [("containers", .array (s.containers.keys.map Json.string)),
    ("objects", .array (s.containers.values.flatMap fun records =>
      records.values.map ObjectRecord.json))]

def addRecord (containers : Std.ExtTreeMap String RecordMap) (record : ObjectRecord) :
    Std.ExtTreeMap String RecordMap :=
  containers.insert record.container
    ((containers.getD record.container ∅).insert record.name record)

def withTable? (s : LocalStore) (table : Json) : Option LocalStore := do
  match ← table.columns? ["containers", "objects"] with
  | [some containers, some objects] =>
    let names ← Json.listOf? Json.string? containers
    let records ← Json.listOf? ObjectRecord.ofJson? objects
    let bare : Std.ExtTreeMap String RecordMap :=
      names.foldl (fun containers name => containers.insertIfNew name ∅) ∅
    return { s with containers := records.foldl addRecord bare }
  | _ => none

end SegmentedFiles.LocalStore
