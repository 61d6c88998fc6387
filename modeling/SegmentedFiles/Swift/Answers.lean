import SegmentedFiles.Http.Message
import SegmentedFiles.Json.Columns
import SegmentedFiles.Json.Reader
import SegmentedFiles.Store.Call
import SegmentedFiles.Swift.Exchange
import SegmentedFiles.Time.Reading

/-! What a Swift cluster says of objects: in headers, in listings, and in the report of a bulk
delete. -/

namespace SegmentedFiles.SwiftAnswer

def manifestHeader : String := "x-object-manifest"

/-- The description of the object called `name` in the headers of a response. What is missing or has
another form is left at nothing. -/
def infoOf (name : String) (headers : Http.Headers) : ObjectInfo where
  name := name
  bytes := ((headers.plain? "content-length").bind fun v =>
    (Decimal.parse Decimal.max64 v).toOption).getD 0
  contentType := (headers.plain? "content-type").getD ""
  lastModified := ((headers.plain? "last-modified").bind Timestamp.ofRfc2822?).getD Timestamp.epoch
  etag := (headers.plain? "etag").map (Text.trim '"')
  manifest := (headers.plain? manifestHeader).bind ManifestRef.ofHeader?
  pseudoDirectory := false

def group? (value : Json) : Option ObjectInfo := do
  match ← value.columns? ["subdir"] with
  | [some name] => return ObjectInfo.group (← name.string?)
  | _ => none

def object? (value : Json) : Option ObjectInfo := do
  match ← value.columns? ["name", "bytes", "content_type", "last_modified", "hash"] with
  | [some name, some bytes, contentType, lastModified, hash] =>
    let modified ← Json.orElse? "" Json.string? lastModified
    return {
      name := ← name.string?
      bytes := ← bytes.nat64?
      contentType := ← Json.orElse? "" Json.string? contentType
      lastModified := (Timestamp.ofListing? modified).getD Timestamp.epoch
      etag := ← Json.orElse? none (Json.orNull? Json.string?) hash
      manifest := none
      pseudoDirectory := false }
  | _ => none

def entry? (value : Json) : Option ObjectInfo := (group? value).orElse fun _ => object? value

def page? (value : Json) : Option (List ObjectInfo) := value.listOf? entry?

def fault? : Json → Option (String × String)
  | .array [name, reason] => do return (← name.string?, ← reason.string?)
  | _ => none

/-- The report of a bulk delete. If no object is to blame for its failure, the status is. -/
def summary? (value : Json) : Option BulkDeleteSummary := do
  match ← value.columns? ["Number Deleted", "Number Not Found", "Response Status", "Errors"] with
  | [deleted, notFound, status, errors] =>
    let status ← Json.orElse? "" Json.string? status
    let errors ← Json.orElse? [] (Json.listOf? fault?) errors
    let errors := if errors.isEmpty && !Text.startsWith status "2" then [("", status)] else errors
    return ⟨← Json.orElse? 0 Json.nat64? deleted, ← Json.orElse? 0 Json.nat64? notFound, errors⟩
  | _ => none

def capabilities? : Json → Option Capabilities
  | .object fields => some ⟨fields.any fun field => field.1 == "bulk_delete"⟩
  | _ => none

end SegmentedFiles.SwiftAnswer
