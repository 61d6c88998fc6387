import SegmentedFiles.Json.Value
import SegmentedFiles.Object.Info
import SegmentedFiles.Time.Reading

/-! Rows of the table of objects that a store on disk keeps, and their form as JSON. -/

namespace SegmentedFiles

structure ObjectRecord where
  container : String
  name : String
  /-- The size of the object's own content. -/
  size : Int
  contentType : String
  etag : String
  lastModified : Timestamp
  /-- A manifest reference in its written form. -/
  manifest : Option String
  deriving DecidableEq, Repr

namespace ObjectRecord

/-- The size, which is not negative. -/
def bytes (r : ObjectRecord) : Nat := r.size.toNat

/-- The manifest reference. Text that is not the written form of one does not count. -/
def manifestRef? (r : ObjectRecord) : Option ManifestRef := r.manifest.bind ManifestRef.ofHeader?

/-- The description of the object, by its own content. -/
def info (r : ObjectRecord) : ObjectInfo :=
  ⟨r.name, r.bytes, r.contentType, r.lastModified, some r.etag, r.manifestRef?, false⟩

def entry (r : ObjectRecord) : ObjectInfo := { r.info with manifest := none }

/-- A size: a signed number of 64 bits. -/
def sizeOf? (value : Json) : Option Int := do
  let n ← value.integer?
  if -1 - (Decimal.maxSigned64 : Int) ≤ n ∧ n ≤ Decimal.maxSigned64 then some n else none

def manifestOf? : Json → Option (Option String)
  | .null => some none
  | .string text => some (some text)
  | _ => none

/-- The row with these values, in the order of the table's columns. -/
def ofValues? (container name size contentType etag lastModified manifest : Json) :
    Option ObjectRecord := do
  return ⟨← container.string?, ← name.string?, ← sizeOf? size, ← contentType.string?, ← etag.string?,
    ← lastModified.string?.bind Timestamp.ofRfc3339?, ← manifestOf? manifest⟩

/-- The row that a JSON value is: an object with the columns' names, of which only the manifest
reference may be left out, or a list of the values. -/
def ofJson? : Json → Option ObjectRecord
  | .array [container, name, size, contentType, etag, lastModified, manifest] =>
    ofValues? container name size contentType etag lastModified manifest
  | .object fields => do
    let column (name : String) : Option Json := (Json.object fields).field? name
    ofValues? (← column "container") (← column "name") (← column "size_bytes")
      (← column "content_type") (← column "etag") (← column "last_modified")
      ((column "object_manifest").getD .null)
  | _ => none

def json (r : ObjectRecord) : Json :=
  .object [("container", .string r.container), ("name", .string r.name),
    ("size_bytes", .integer r.size), ("content_type", .string r.contentType),
    ("etag", .string r.etag), ("last_modified", .string r.lastModified.toRfc3339),
    ("object_manifest", (r.manifest.map Json.string).getD .null)]

end ObjectRecord

end SegmentedFiles
