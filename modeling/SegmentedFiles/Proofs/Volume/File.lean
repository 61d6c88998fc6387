import SegmentedFiles.Proofs.Volume.Layout

/-! # What a file holds

`Volume.Holds` says which bytes a file has and how they are kept: nothing is there yet, or a plain
object, or a manifest with its segments. A read of the file gives these bytes (`contentAt_of_holds`).
A file of which this is true can be written if no other names are in the way (`Volume.Writable`). -/

namespace SegmentedFiles.Volume

open MemoryStore (answer)

variable {v : Volume} {m t : MemoryStore} {name path dir : String} {content : Bytes}
  {o : StoredObject}

/-- The object called `name` is a manifest whose segments are the chunks of `content`. -/
structure Segmented (v : Volume) (m : MemoryStore) (name : String) (content : Bytes) : Prop where
  object : ∃ o, m.object? v.container name = some o ∧ o.manifest = some (v.manifestRef name)
  stores : v.Stores m name content

/-- The file called `name` has the bytes `content`. Until it is kept in segments, segments of an earlier
file may be left. -/
inductive Holds (v : Volume) (m : MemoryStore) (name : String) : Bytes → Prop where
  | absent (object : m.object? v.container name = none) (stale : v.Numbered m name) :
    v.Holds m name []
  | plain {o : StoredObject} (object : m.object? v.container name = some o)
    (plain : o.manifest = none) (file : o.contentType ≠ directoryType)
    (fits : o.content.size ≤ v.chunkSize * Segment.maxSequence) (stale : v.Numbered m name) :
    v.Holds m name o.content.bytes
  | segmented {content : Bytes} (file : v.Segmented m name content) : v.Holds m name content

theorem Holds.fits (h : v.Holds m name content) :
    content.length ≤ v.chunkSize * Segment.maxSequence := by
  cases h with
  | absent => exact Nat.zero_le _
  | plain _ _ _ fits => rwa [Payload.length_bytes]
  | segmented file => exact file.stores.fits

theorem Holds.numbered (h : v.Holds m name content) : v.Numbered m name := by
  cases h with
  | absent _ stale => exact stale
  | plain _ _ _ _ stale => exact stale
  | segmented file => exact file.stores.numbered

/-- What has a manifest is in segments. -/
theorem Holds.segmented_of_manifest {ref : ManifestRef} (h : v.Holds m name content)
    (ho : m.object? v.container name = some o) (href : o.manifest = some ref) :
    v.Segmented m name content := by
  cases h with
  | absent object =>
    rw [object] at ho
    cases ho
  | plain object plain =>
    rw [object] at ho
    cases ho
    rw [plain] at href
    cases href
  | segmented file => exact file

/-- Nothing but the file's own object and segments matters. -/
theorem Holds.congr (h : v.Holds m name content)
    (hobject : t.object? v.container name = m.object? v.container name)
    (hsegment : ∀ s, t.object? v.segmentsContainer (Segment.name name s)
      = m.object? v.segmentsContainer (Segment.name name s)) : v.Holds t name content := by
  have hstale : v.Numbered m name → v.Numbered t name := fun hm s o ho => hm s o (hsegment s ▸ ho)
  cases h with
  | absent object stale => exact .absent (hobject.trans object) (hstale stale)
  | plain object plain file fits stale =>
    exact .plain (hobject.trans object) plain file fits (hstale stale)
  | segmented file =>
    obtain ⟨o, ho, hmanifest⟩ := file.object
    exact .segmented ⟨⟨o, hobject.trans ho, hmanifest⟩, file.stores.congr hsegment⟩

/-- The bytes that a read of the file at a path gives, and none if it is not there. -/
def contentAt (v : Volume) (m : MemoryStore) (path : String) : Bytes :=
  match m.object? v.container (v.storeName path) with
  | some o => (m.resolve o).bytes
  | none => []

theorem contentAt_of_holds (h : v.Holds m (v.storeName path) content)
    (hforeign : v.NoForeign m (v.storeName path)) : v.contentAt m path = content := by
  unfold contentAt
  cases h with
  | absent object => rw [object]
  | plain object plain =>
    rw [object]
    exact congrArg Payload.bytes (MemoryStore.resolve_of_plain plain)
  | segmented file =>
    obtain ⟨o, ho, hmanifest⟩ := file.object
    rw [ho]
    exact file.stores.bytes_resolve hforeign hmanifest

/-- The file at a path can be written: it is not there, or is a plain object and no directory, or is
a manifest with segments that are laid out well; no other objects are in the way of its segments, and
no file is above it. -/
structure Writable (v : Volume) (m : MemoryStore) (path : String) : Prop where
  file : ∀ o, m.object? v.container (v.storeName path) = some o →
    o.manifest = none ∧ o.contentType ≠ directoryType ∧
        o.content.size ≤ v.chunkSize * Segment.maxSequence ∨
      o.manifest = some (v.manifestRef (v.storeName path)) ∧ ∃ k, v.Regular m (v.storeName path) k
  segments : v.NoForeign m (v.storeName path)
  parents : v.UnderDirectories m path

/-- A file that can be written has a content. -/
theorem Writable.holds (h : v.Writable m path) :
    v.Holds m (v.storeName path) (v.contentAt m path) := by
  have hholds : ∃ content, v.Holds m (v.storeName path) content := by
    cases ho : m.object? v.container (v.storeName path) with
    | none => exact ⟨_, .absent ho h.segments.numbered⟩
    | some o =>
      rcases h.file o ho with ⟨hplain, hfile, hfits⟩ | ⟨hmanifest, k, hregular⟩
      · exact ⟨_, .plain ho hplain hfile hfits h.segments.numbered⟩
      · obtain ⟨content, hstores⟩ := hregular.exists_stores h.segments.numbered
        exact ⟨content, .segmented ⟨⟨o, ho, hmanifest⟩, hstores⟩⟩
  obtain ⟨content, hcontent⟩ := hholds
  rwa [contentAt_of_holds hcontent h.segments]

/-- A file that holds something can be written, if nothing is in the way of it. -/
theorem Holds.writable (h : v.Holds m (v.storeName path) content) (hforeign : v.NoForeign m (v.storeName path))
    (hunder : v.UnderDirectories m path) : v.Writable m path := by
  refine ⟨fun o ho => ?_, hforeign, hunder⟩
  cases h with
  | absent object =>
    rw [object] at ho
    cases ho
  | plain object plain file fits =>
    rw [object] at ho
    cases ho
    exact .inl ⟨plain, file, fits⟩
  | segmented file =>
    obtain ⟨o', ho', hmanifest⟩ := file.object
    rw [ho'] at ho
    cases ho
    exact .inr ⟨hmanifest, _, file.stores.regular⟩

/-! ## What outlives a change that is confined to a file -/

theorem Confined.noForeign (h : v.Confined name m t) (hm : v.NoForeign m name)
    (hnumbered : v.Numbered t name) : v.NoForeign t name := by
  intro text o ho hstart
  by_cases hs : ∃ s, text = Segment.name name s
  · obtain ⟨s, rfl⟩ := hs
    exact Option.isSome_iff_exists.2 ⟨s, Segment.sequence?_eq_some_iff.2 ⟨rfl, hnumbered s o ho⟩⟩
  · rw [h.segment fun s hname => hs ⟨s, hname⟩] at ho
    exact hm text o ho hstart

/-- What is held after such a change is read. -/
theorem Confined.contentAt_eq (h : v.Confined (v.storeName path) m t) (hm : v.NoForeign m (v.storeName path))
    (hholds : v.Holds t (v.storeName path) content) : v.contentAt t path = content :=
  contentAt_of_holds hholds (h.noForeign hm hholds.numbered)

/-- Above a file, only directories are made. -/
theorem Confined.underDirectories (h : v.Confined (v.storeName path) m t) (hpath : Path.isBelowRoot path = true)
    (hm : v.UnderDirectories m path) : v.UnderDirectories t path := by
  intro dir hdir o ho
  rcases h.file (storeName_ne_of_mem_ancestors hpath hdir) with hsame | ⟨-, o', ho', hdirectory⟩
  · exact hm dir hdir o (hsame ▸ ho)
  · rw [ho'] at ho
    cases ho
    exact hdirectory.contentType

/-- A file that held something and was changed can be written again. -/
theorem Confined.writable (h : v.Confined (v.storeName path) m t) (hpath : Path.isBelowRoot path = true)
    (hm : v.Writable m path) (hholds : v.Holds t (v.storeName path) content) : v.Writable t path :=
  hholds.writable (h.noForeign hm.segments hholds.numbered) (h.underDirectories hpath hm.parents)

/-- Another file's segments are as they were. -/
theorem Confined.stores_of_ne {other : String} (h : v.Confined name m t) (hne : other ≠ name)
    (hm : v.Stores m other content) : v.Stores t other content :=
  hm.congr fun _ => h.segment fun _ hname => hne (Segment.name_inj hname).1

end SegmentedFiles.Volume
