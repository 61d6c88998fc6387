import SegmentedFiles.Local.Store
import SegmentedFiles.Proofs.Local.Names
import SegmentedFiles.Proofs.Store.Nested
import SegmentedFiles.Proofs.Text.Pieces

/-! # The rows of a store on disk

The table of a store is known by `row?`, what is found under a name of a container. A row describes
an object with some content (`ObjectRecord.Describes`); of a manifest it has the reference in its written form,
which is read back (`ManifestRef.ofHeader?_header`). -/

namespace SegmentedFiles

/-- A reference is read back if its container can be told from the rest. -/
theorem ManifestRef.ofHeader?_header {ref : ManifestRef} (hcontainer : ref.container ≠ "")
    (hslash : '/' ∉ ref.container.toList) : ofHeader? ref.header = some ref := by
  have hsplit : Text.splitFirst? '/' ref.header = some (ref.container, ref.start) :=
    Text.splitFirst?_eq_some_iff.2 ⟨by simp [header], hslash⟩
  rw [ofHeader?, hsplit]
  simp [hcontainer]

/-- What is read as a reference is how this is written. -/
theorem ManifestRef.header_of_ofHeader? {text : String} {ref : ManifestRef}
    (h : ofHeader? text = some ref) : ref.header = text := by
  unfold ofHeader? at h
  split at h
  · next container start hsplit =>
    split at h
    · cases h
    · obtain rfl := Option.some.inj h
      rw [← String.toList_inj, (Text.splitFirst?_eq_some_iff.1 hsplit).1]
      simp [header]
  · cases h

/-- The row is that of an object of this name with this content. -/
structure ObjectRecord.Describes (r : ObjectRecord) (container name : String) (content : Payload) :
    Prop where
  container : r.container = container
  name : r.name = name
  size : r.size = content.size
  etag : r.etag = Md5.hexDigest content

namespace LocalStore

open Local

variable {s : LocalStore} {c c' n n' : String} {r : ObjectRecord}

/-- The row under a name of a container. -/
def row? (s : LocalStore) (container name : String) : Option ObjectRecord :=
  (s.records container)[name]?

/-- There is a row under this name. -/
def Holds (s : LocalStore) (container name : String) : Prop := ∃ r, s.row? container name = some r

theorem row?_empty (now : Timestamp) (c n : String) : (empty now).row? c n = none := by
  rw [row?, records, empty, Std.ExtTreeMap.getD_empty]
  exact Std.ExtTreeMap.getElem?_empty

theorem not_holds_empty (now : Timestamp) (c n : String) : ¬(empty now).Holds c n := by
  intro h
  obtain ⟨r, hr⟩ := h
  exact nomatch (row?_empty now c n).symm.trans hr

theorem record_of_some (h : s.row? c n = some r) : s.record c n = .ok r := by
  rw [record]
  rw [row?] at h
  rw [h]

theorem record_of_none (h : s.row? c n = none) : s.record c n = .error .notFound := by
  rw [record]
  rw [row?] at h
  rw [h]

theorem contains_records : (s.records c).contains n = true ↔ s.Holds c n := by
  rw [Std.ExtTreeMap.contains_eq_isSome_getElem?, Option.isSome_iff_exists]
  rfl

/-- A container in which there is a row is there. -/
theorem Holds.mem_containers (h : s.Holds c n) : c ∈ s.containers := by
  obtain ⟨r, hr⟩ := h
  exact mem_of_getElem?_getD hr

/-- The store with a row under a name of a container. -/
def enter (s : LocalStore) (container name : String) (row : ObjectRecord) : LocalStore :=
  { s with containers := s.containers.insert container ((s.records container).insert name row) }

/-- The store with no row under a name of a container. -/
def strike (s : LocalStore) (container name : String) : LocalStore :=
  { s with containers := s.containers.insert container ((s.records container).erase name) }

theorem row?_enter :
    (s.enter c n r).row? c' n' = if c' = c ∧ n' = n then some r else s.row? c' n' :=
  getElem?_getD_insert

theorem row?_strike :
    (s.strike c n).row? c' n' = if c' = c ∧ n' = n then none else s.row? c' n' :=
  getElem?_getD_erase

/-- The row that is written for an object. -/
def written (s : LocalStore) (container name : String) (content : Payload) (options : PutOptions) :
    ObjectRecord :=
  ⟨container, name, content.size, options.contentType, Md5.hexDigest content, s.now,
    options.manifest.map ManifestRef.header⟩

theorem checkContainer_of_mem (hc : isContainerName c = true) (hmem : c ∈ s.containers) :
    s.checkContainer c = .ok () := by
  rw [checkContainer, hc, Std.ExtTreeMap.contains_iff_mem.2 hmem]
  rfl

theorem checkContainer_of_not_mem (hc : isContainerName c = true) (hmem : c ∉ s.containers) :
    s.checkContainer c = .error .notFound := by
  rw [checkContainer, hc, if_neg (by simp), if_neg]
  rwa [Std.ExtTreeMap.contains_iff_mem]

/-- The rows whose names start with a text, as the map of the container lists them. -/
theorem recordsFrom_eq (start : String) (hnames : ∀ n r, s.row? c n = some r → r.name = n) :
    s.recordsFrom c start =
      ((s.records c).toList.filter fun row => Text.startsWith row.1 start).map Prod.snd := by
  rw [recordsFrom, values_eq_map_toList, List.filter_map]
  refine congrArg _ (List.filter_congr fun row hrow => ?_)
  rw [Function.comp_apply, hnames row.1 row.2 (Std.ExtTreeMap.mem_toList_iff_getElem?_eq_some.1 hrow)]

end LocalStore

end SegmentedFiles
