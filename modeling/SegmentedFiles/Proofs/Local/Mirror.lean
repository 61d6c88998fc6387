import SegmentedFiles.Proofs.Local.InStep
import SegmentedFiles.Proofs.Store.Lookup
import SegmentedFiles.Proofs.Store.Replies

/-! # A store on disk that mirrors one in memory

A store on disk mirrors a store in memory (`Mirrors`) if it has the same containers, a row for each object, and
the object's content in its file. The calls that only read then give the same on both, in whatever way each of
them comes by it. -/

namespace SegmentedFiles

/-- From an offset within the content on, the rest is read. -/
theorem ByteRange.resolve?_onward {offset length : Nat} (h : offset < length) :
    (onward offset).resolve? length = some (offset, length) := by
  have hmax : max offset length = length := Nat.max_eq_right (Nat.le_of_lt h)
  refine (if_neg (Nat.not_le.2 h)).trans ?_
  exact congrArg (fun stop => some (offset, stop)) hmax

/-- The row, but for the time of the last change. -/
def ObjectRecord.timeless (r : ObjectRecord) : ObjectRecord := { r with lastModified := .epoch }

/-- The row of an object, but for the time of the last change. -/
def StoredObject.row (object : StoredObject) (container name : String) : ObjectRecord :=
  ⟨container, name, object.content.size, object.contentType, object.etag, .epoch,
    object.manifest.map ManifestRef.header⟩

namespace LocalStore

open Local

variable {s t : LocalStore} {m : MemoryStore} {c n : String} {o : StoredObject} {r : ObjectRecord}

structure Mirrors (s : LocalStore) (m : MemoryStore) : Prop where
  inStep : s.InStep
  containers : ∀ c, c ∈ m.containers ↔ c ∈ s.containers
  row : ∀ c n, (s.row? c n).map ObjectRecord.timeless = (m.object? c n).map fun o => o.row c n
  content : ∀ c n o, m.object? c n = some o →
    s.disk.entry? (payloadPath c n) = some (.file o.content)
  /-- The written form of each manifest reference is read back. -/
  legible : ∀ c n o ref, m.object? c n = some o → o.manifest = some ref →
    ManifestRef.ofHeader? ref.header = some ref
  bulkDelete : m.bulkDelete = true
  putBudget : m.putBudget = none
  bulkFault : m.bulkFault = none

namespace Mirrors

theorem row_of_some (h : s.Mirrors m) (ho : m.object? c n = some o) :
    ∃ r, s.row? c n = some r ∧ r.timeless = o.row c n := by
  have hrow := h.row c n
  rw [ho] at hrow
  exact Option.map_eq_some_iff.1 hrow

theorem row_of_none (h : s.Mirrors m) (ho : m.object? c n = none) : s.row? c n = none := by
  have hrow := h.row c n
  rw [ho] at hrow
  exact Option.map_eq_none_iff.1 hrow

theorem holds_iff (h : s.Mirrors m) : s.Holds c n ↔ ∃ o, m.object? c n = some o := by
  constructor
  · rintro ⟨r, hr⟩
    cases ho : m.object? c n with
    | some o => exact ⟨o, rfl⟩
    | none => exact nomatch hr.symm.trans (h.row_of_none ho)
  · rintro ⟨o, ho⟩
    obtain ⟨r, hr, -⟩ := h.row_of_some ho
    exact ⟨r, hr⟩

theorem manifestRef? (h : s.Mirrors m) (ho : m.object? c n = some o) (hr : r.timeless = o.row c n) :
    r.manifestRef? = o.manifest := by
  have hmanifest : r.manifest = o.manifest.map ManifestRef.header := congrArg ObjectRecord.manifest hr
  rw [ObjectRecord.manifestRef?, hmanifest]
  cases href : o.manifest with
  | none => rfl
  | some ref => exact h.legible c n o ref ho href

theorem readPayload (h : s.Mirrors m) (ho : m.object? c n = some o) :
    s.readPayload (o.row c n) = .ok o.content := by
  have hread := Disk.readFile_of_file (h.inStep.reaches (h.holds_iff.2 ⟨o, ho⟩)) (h.content c n o ho)
  rw [LocalStore.readPayload]
  exact congrArg (Except.mapError ofDiskFailure) hread

/-! ## The objects whose names start with a text -/

/-- The rows of a container are those of its objects, in the same order. -/
theorem toList_records (h : s.Mirrors m) (c : String) :
    (s.records c).toList.map (fun row => (row.1, row.2.timeless))
      = (m.objects c).toList.map fun object => (object.1, object.2.row c object.1) := by
  have hmaps : (s.records c).map (fun _ r => r.timeless) = (m.objects c).map fun n o => o.row c n := by
    refine Std.ExtTreeMap.ext_getElem? fun n => ?_
    rw [Std.ExtTreeMap.getElem?_map, Std.ExtTreeMap.getElem?_map]
    exact h.row c n
  have hlists := congrArg Std.ExtTreeMap.toList hmaps
  rwa [Std.ExtTreeMap.toList_map, Std.ExtTreeMap.toList_map] at hlists

theorem recordsFrom (h : s.Mirrors m) (c start : String) :
    (s.recordsFrom c start).map ObjectRecord.timeless
      = (m.under c start).map fun object => object.2.row c object.1 := by
  have hnames : ∀ n r, s.row? c n = some r → r.name = n := by
    intro n r hr
    obtain ⟨_, _, hdescribes⟩ := h.inStep.row c n r hr
    exact hdescribes.name
  have hfilter := congrArg (List.filter fun row : String × ObjectRecord => Text.startsWith row.1 start)
    (h.toList_records c)
  rw [List.filter_map, List.filter_map] at hfilter
  have hrows := congrArg (List.map Prod.snd) hfilter
  rw [List.map_map, List.map_map] at hrows
  rw [recordsFrom_eq start hnames, List.map_map, MemoryStore.under]
  exact hrows

/-- The content that a manifest reads as: the segments joined. -/
theorem resolve_eq_foldl {ref : ManifestRef} (href : o.manifest = some ref) :
    m.resolve o = (m.under ref.container ref.start).foldl
      (fun content segment => content ++ segment.2.content) ByteArray.empty := by
  rw [MemoryStore.under, List.foldl_filter]
  simp only [MemoryStore.resolve, href]

/-- An object reads the same on both stores. -/
theorem resolve (h : s.Mirrors m) (ho : m.object? c n = some o) (hr : r.timeless = o.row c n) :
    s.resolve r = .ok (m.resolve o) := by
  rw [LocalStore.resolve, h.manifestRef? ho hr]
  cases href : o.manifest with
  | none =>
    rw [MemoryStore.resolve_of_plain href, ← h.readPayload ho, ← hr]
    rfl
  | some ref =>
    have hfold : ∀ (objects : List (String × StoredObject)) (content : Payload),
        (∀ object ∈ objects, m.object? ref.container object.1 = some object.2) →
        (objects.map fun object => object.2.row ref.container object.1).foldlM
            (fun content segment => return content ++ (← s.readPayload segment)) content
          = (.ok (objects.foldl (fun content segment => content ++ segment.2.content) content) :
              Except StoreError Payload) := by
      intro objects
      induction objects with
      | nil => exact fun _ _ => rfl
      | cons object rest ih =>
        intro content hobjects
        rw [List.map_cons, List.foldlM_cons, h.readPayload (hobjects object List.mem_cons_self)]
        exact ih _ fun x hx => hobjects x (List.mem_cons_of_mem _ hx)
    have hmem : ∀ object ∈ m.under ref.container ref.start,
        m.object? ref.container object.1 = some object.2 := fun object hobject =>
      (MemoryStore.mem_under.1 hobject).1
    rw [resolve_eq_foldl href, ← hfold _ _ hmem, ← h.recordsFrom, List.foldlM_map]
    rfl

/-- An object has the same size on both stores: that of a manifest is added up on the one, and that of what
it reads as on the other. -/
theorem size (h : s.Mirrors m) (ho : m.object? c n = some o) (hr : r.timeless = o.row c n) :
    s.size r = (m.resolve o).size := by
  rw [LocalStore.size, h.manifestRef? ho hr]
  cases href : o.manifest with
  | none =>
    rw [MemoryStore.resolve_of_plain href, ObjectRecord.bytes]
    exact congrArg (fun r => r.size.toNat) hr
  | some ref =>
    have hfold : ∀ (objects : List (String × StoredObject)) (content : Payload),
        (objects.map fun object => object.2.row ref.container object.1).foldl
            (fun total segment => total + segment.size) (content.size : Int)
          = (objects.foldl (fun content segment => content ++ segment.2.content) content).size := by
      intro objects
      induction objects with
      | nil => exact fun _ => rfl
      | cons object rest ih =>
        intro content
        rw [List.map_cons, List.foldl_cons, List.foldl_cons, ← ih, ByteArray.size_append, Int.natCast_add]
        rfl
    have htotal : (s.recordsFrom ref.container ref.start).foldl
        (fun total segment => total + segment.size) 0 = ((m.resolve o).size : Int) := by
      rw [resolve_eq_foldl href, ← hfold, ← h.recordsFrom, List.foldl_map]
      rfl
    exact congrArg Int.toNat htotal

/-! ## Calls that only read -/

/-- An object is described the same by its row as in memory. -/
theorem info (h : s.Mirrors m) (ho : m.object? c n = some o) (hr : r.timeless = o.row c n) (bytes : Nat) :
    { r.info with bytes := bytes }.timeless = (o.info n bytes).timeless := by
  have hmanifest := h.manifestRef? ho hr
  obtain ⟨container, name, size, contentType, etag, lastModified, manifest⟩ := r
  simp only [ObjectRecord.timeless, StoredObject.row, ObjectRecord.mk.injEq] at hr
  obtain ⟨rfl, rfl, rfl, rfl, rfl, -, rfl⟩ := hr
  simp only [ObjectInfo.timeless, ObjectRecord.info, StoredObject.info, hmanifest]

theorem head (h : s.Mirrors m) (c n : String) :
    (StoreCall.head c n).timeless (answer (.head c n) s).1
      = (StoreCall.head c n).timeless (MemoryStore.answer (.head c n) m).1 := by
  cases ho : m.object? c n with
  | none =>
    rw [MemoryStore.answer_head_of_none ho]
    simp only [answer, record_of_none (h.row_of_none ho)]
    rfl
  | some o =>
    obtain ⟨r, hrow, hr⟩ := h.row_of_some ho
    rw [MemoryStore.answer_head_of_some ho]
    simp only [answer, record_of_some hrow, StoreCall.timeless, Except.map, h.size ho hr]
    exact congrArg Except.ok (h.info ho hr _)

/-- Reading is the same on both stores. -/
theorem read (h : s.Mirrors m) (c n : String) (range : Option ByteRange) :
    s.read c n range = m.read c n range := by
  cases ho : m.object? c n with
  | none =>
    simp only [LocalStore.read, MemoryStore.read, record_of_none (h.row_of_none ho), ho]
    rfl
  | some o =>
    obtain ⟨r, hrow, hr⟩ := h.row_of_some ho
    simp only [LocalStore.read, MemoryStore.read, record_of_some hrow, ho, bind, Except.bind,
      h.resolve ho hr]
    cases range with
    | none => rfl
    | some range =>
      simp only [slice]
      cases range.resolve? (m.resolve o).size <;> rfl

/-- A plain object is delivered from its file, a manifest from what it reads as. -/
theorem openFrom (h : s.Mirrors m) (c n : String) (offset : Nat) :
    s.openFrom c n offset
      = (m.read c n (some (.onward offset))).map fun content => ⟨content, none⟩ := by
  cases ho : m.object? c n with
  | none =>
    simp only [LocalStore.openFrom, MemoryStore.read, record_of_none (h.row_of_none ho), ho]
    rfl
  | some o =>
    obtain ⟨r, hrow, hr⟩ := h.row_of_some ho
    have hmanifest : r.manifest = o.manifest.map ManifestRef.header :=
      congrArg ObjectRecord.manifest hr
    have hfind := (h.inStep.reaches ⟨r, hrow⟩).find_of_some (h.content c n o ho)
    simp only [LocalStore.openFrom, MemoryStore.read, record_of_some hrow, ho, hmanifest,
      Option.isSome_map, bind, Except.bind, h.resolve ho hr, slice]
    cases href : o.manifest with
    | some ref =>
      simp only [Option.isSome_some, if_true]
      cases (ByteRange.onward offset).resolve? (m.resolve o).size <;> rfl
    | none =>
      have hbytes : r.bytes = o.content.size := congrArg (fun r => r.size.toNat) hr
      simp only [Option.isSome_none, MemoryStore.resolve_of_plain href, hbytes, hfind]
      by_cases hend : o.content.size ≤ offset
      · rw [ByteRange.resolve?_eq_none_iff.2 hend]
        rfl
      · rw [ByteRange.resolve?_onward (Nat.lt_of_not_le hend)]
        rfl

theorem list (h : s.Mirrors m) (hc : isContainerName c = true) (options : ListOptions) :
    (StoreCall.list c options).timeless (answer (.list c options) s).1
      = (StoreCall.list c options).timeless (MemoryStore.answer (.list c options) m).1 := by
  by_cases hmem : c ∈ s.containers
  · have hentry : (s.records c).toList.map (fun row => (row.1, row.2.entry.timeless))
        = (m.objects c).toList.map fun object => (object.1, (object.2.entry object.1).timeless) := by
      have hrows := congrArg (List.map fun row : String × ObjectRecord => (row.1, row.2.entry.timeless))
        (h.toList_records c)
      rw [List.map_map, List.map_map] at hrows
      exact hrows
    simp only [answer, checkContainer_of_mem hc hmem, MemoryStore.answer,
      MemoryStore.getElem?_containers ((h.containers c).2 hmem), Except.map, StoreCall.timeless,
      ← ListOptions.select_timeless, List.map_map]
    exact congrArg (fun objects => Except.ok (options.select objects)) hentry
  · simp only [answer, checkContainer_of_not_mem hc hmem, MemoryStore.answer,
      Std.ExtTreeMap.getElem?_eq_none (mt (h.containers c).1 hmem)]
    rfl

end Mirrors

end LocalStore

end SegmentedFiles
