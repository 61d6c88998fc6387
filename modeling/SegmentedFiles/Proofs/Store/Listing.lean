import SegmentedFiles.Proofs.Local.Accounted
import SegmentedFiles.Proofs.Object.Listing

/-! # Listings of both stores

Both stores hand the objects of a container to a listing in name order, so what is listed is the same: each
object whose name starts as is asked for has one entry, and the entries are in order
(`listing_partitions_names`). For a store on disk the rows have to be kept under their own names
(`LocalStore.WellNamed`), which they are after any calls, failed ones included. -/

namespace SegmentedFiles

/-- What is kept in a map by name is given to a listing in name order. -/
theorem ListOptions.lists_map {α : Type} (options : ListOptions) (entries : Std.ExtTreeMap String α)
    {describe : String → α → ObjectInfo}
    (hown : ∀ name a, entries[name]? = some a → (describe name a).name = name) :
    options.Lists (fun name => entries[name]?.map (describe name))
      (options.select (entries.toList.map fun entry => (entry.1, describe entry.1 entry.2))) := by
  refine lists_select ?_ ?_ ?_
  · rw [List.pairwise_map]
    exact (Std.ExtTreeMap.ordered_keys_toList (t := entries)).imp fun h => compareOfLessAndEq_eq_lt.1 h
  · intro name own
    rw [List.mem_map, Option.map_eq_some_iff]
    constructor
    · intro h
      obtain ⟨entry, hentry, heq⟩ := h
      obtain ⟨rfl, rfl⟩ := Prod.mk.inj heq
      exact ⟨entry.2, Std.ExtTreeMap.mem_toList_iff_getElem?_eq_some.1 hentry, rfl⟩
    · intro h
      obtain ⟨a, ha, rfl⟩ := h
      exact ⟨(name, a), Std.ExtTreeMap.mem_toList_iff_getElem?_eq_some.2 ha, rfl⟩
  · intro name own h
    obtain ⟨a, ha, rfl⟩ := Option.map_eq_some_iff.1 h
    exact hown name a ha

/-- What a container lists by itself under a name. -/
def MemoryStore.described (m : MemoryStore) (container name : String) : Option ObjectInfo :=
  (m.object? container name).map fun object => object.entry name

namespace LocalStore

open Local

variable {s t : LocalStore} {c n : String}

/-- The containers are called as containers may be, and each row is kept under the name that is in it. -/
structure WellNamed (s : LocalStore) : Prop where
  container : ∀ c ∈ s.containers, isContainerName c = true
  row : ∀ c n r, s.row? c n = some r → r.name = n

def described (s : LocalStore) (container name : String) : Option ObjectInfo :=
  (s.row? container name).map ObjectRecord.entry

/-! ## Rows are kept under their own names -/

namespace WellNamed

theorem empty (now : Timestamp) : (LocalStore.empty now).WellNamed :=
  ⟨fun _ hc => absurd hc Std.ExtTreeMap.not_mem_empty, fun c n _ hr =>
    nomatch (row?_empty now c n).symm.trans hr⟩

/-- The tree of files does not matter. -/
theorem congr (h : s.WellNamed) (hcontainers : t.containers = s.containers) : t.WellNamed := by
  refine ⟨fun c hc => h.container c (hcontainers ▸ hc), fun c n r hr => h.row c n r ?_⟩
  rwa [row?, records, hcontainers] at hr

theorem containers_writePayload (s : LocalStore) (c n : String) (content : Payload) :
    (s.writePayload c n content).2.containers = s.containers := by
  rw [writePayload]
  split
  split
  · rfl
  · dsimp only
    split
    · rfl
    · split <;> rfl

theorem enter {r : ObjectRecord} (h : s.WellNamed) (hc : isContainerName c = true) (hr : r.name = n) :
    (s.enter c n r).WellNamed := by
  refine ⟨fun c' hc' => ?_, fun c' n' r' hr' => ?_⟩
  · rcases Std.ExtTreeMap.mem_insert.1 hc' with hsame | hc'
    · rwa [← Std.LawfulEqCmp.eq_of_compare hsame]
    · exact h.container c' hc'
  · rw [row?_enter] at hr'
    split at hr'
    · next hsame =>
      obtain rfl := Option.some.inj hr'
      rw [hr, hsame.2]
    · exact h.row c' n' r' hr'

theorem insert (h : s.WellNamed) (c n : String) (content : Payload) (options : PutOptions) :
    (s.insert c n content options).2.WellNamed := by
  have hdisk := h.congr (containers_writePayload s c n content)
  rw [LocalStore.insert]
  split
  · exact h
  · rcases checkContainer_cases s c with ⟨e, hcheck⟩ | ⟨hcheck, hname, -⟩
    · rw [hcheck]
      exact h
    · rw [hcheck]
      dsimp only
      split
      · next heq => exact heq ▸ hdisk
      · next heq =>
        rw [heq] at hdisk
        exact hdisk.enter hname rfl

theorem strike (h : s.WellNamed) (hc : c ∈ s.containers) (n : String) : (s.strike c n).WellNamed := by
  refine ⟨fun c' hc' => h.container c' ((mem_insert_of_mem hc).1 hc'), fun c' n' r' hr' => ?_⟩
  rw [row?_strike] at hr'
  split at hr'
  · cases hr'
  · exact h.row c' n' r' hr'

theorem erase (h : s.WellNamed) (c n : String) : (s.erase c n).2.WellNamed := by
  rw [LocalStore.erase]
  split
  · next hcontains =>
    have hstrike := h.strike (contains_records.1 hcontains).mem_containers n
    dsimp only
    split
    · exact hstrike.congr rfl
    · exact hstrike.congr rfl
    · exact hstrike.congr rfl
  · exact h

theorem eraseAll (h : s.WellNamed) (targets : List ObjectTarget) (summary : BulkDeleteSummary) :
    (s.eraseAll targets summary).2.WellNamed := by
  induction targets generalizing s summary with
  | nil => exact h
  | cons target rest ih =>
    have hfirst := h.erase target.container target.name
    rw [LocalStore.eraseAll]
    split
    · next heq =>
      rw [heq] at hfirst
      exact ih hfirst _
    · next heq =>
      rw [heq] at hfirst
      exact ih hfirst _
    · next heq =>
      rw [heq] at hfirst
      exact ih hfirst _

theorem createContainer (h : s.WellNamed) (c : String) : (s.createContainer c).2.WellNamed := by
  rw [LocalStore.createContainer]
  split
  · exact h
  · next hname =>
    split
    · exact h.congr rfl
    · refine ⟨fun c' hc' => ?_, fun c' n r hr => h.row c' n r ?_⟩
      · rcases Std.ExtTreeMap.mem_insertIfNew.1 hc' with hsame | hc'
        · rw [← Std.LawfulEqCmp.eq_of_compare hsame]
          simpa using hname
        · exact h.container c' hc'
      · rwa [row?, records, getD_insertIfNew] at hr

/-- Every call keeps rows under their own names, whether it succeeds or not. -/
theorem answer (h : s.WellNamed) (call : StoreCall) : (LocalStore.answer call s).2.WellNamed := by
  cases call with
  | createContainer c => exact h.createContainer c
  | put c n body options => exact h.insert c n body options
  | copy source target =>
    simp only [LocalStore.answer]
    split
    · exact h
    · split
      · exact h
      · exact h.insert _ _ _ _
  | delete c n => exact h.erase c n
  | bulkDelete targets => exact h.eraseAll targets _
  | head c n => exact h
  | get c n range => exact h
  | openFrom c n offset => exact h
  | list c options => exact h
  | capabilities => exact h

theorem after (h : s.WellNamed) (calls : List (StoreCall × Timestamp)) :
    (Store.after LocalStore.answer LocalStore.atTime calls s).WellNamed := by
  induction calls generalizing s with
  | nil => exact h
  | cons first rest ih => exact ih ((h.congr (t := s.atTime first.2) rfl).answer first.1)

end WellNamed

end LocalStore

/-- Both stores list a container's objects with one entry for each object whose name starts as is asked for,
its own or that of its group, in the order of the entries' bytes, and with no other entry. After any calls
the rows on disk are kept as this needs it. -/
theorem listing_partitions_names (options : ListOptions) (c : String) :
    (∀ m : MemoryStore, c ∈ m.containers → ∃ infos,
      MemoryStore.answer (.list c options) m = (.ok infos, m) ∧ options.Lists (m.described c) infos) ∧
    (∀ s : LocalStore, s.WellNamed → c ∈ s.containers → ∃ infos,
      LocalStore.answer (.list c options) s = (.ok infos, s) ∧ options.Lists (s.described c) infos) ∧
    ∀ now calls, (Store.after LocalStore.answer LocalStore.atTime calls (LocalStore.empty now)).WellNamed := by
  refine ⟨fun m hc => ⟨_, ?_, options.lists_map (m.objects c) fun _ _ _ => rfl⟩,
    fun s h hc => ⟨_, ?_, options.lists_map (s.records c) (h.row c)⟩,
    fun now calls => (LocalStore.WellNamed.empty now).after calls⟩
  · simp only [MemoryStore.answer, MemoryStore.getElem?_containers hc]
  · simp only [LocalStore.answer, LocalStore.checkContainer_of_mem (h.container c hc) hc]
    rfl

/-- Objects with and without the delimiter in their names. -/
def foldableStore : MemoryStore :=
  ["ä-x", "ä→b", "ä→c"].foldl
    (fun m name => m.place "files" name ⟨ByteArray.empty, "", Timestamp.epoch, "", none⟩)
    (MemoryStore.empty true Timestamp.epoch)

/-- The same objects as rows of a table. -/
def foldableTable : LocalStore :=
  ["ä-x", "ä→b", "ä→c"].foldl
    (fun s name => s.enter "files" name ⟨"files", name, 0, "", "", Timestamp.epoch, none⟩)
    (LocalStore.empty Timestamp.epoch)

/-- Two names with an arrow share an entry, and one without has its own. -/
theorem listing_partitions_names_of_arrows :
    (∃ infos own, MemoryStore.answer (.list "files" (.folded "ä" '→')) foldableStore
        = (.ok infos, foldableStore) ∧ own.name = "ä-x" ∧ own ∈ infos ∧ ObjectInfo.group "ä→" ∈ infos) ∧
    ∃ infos own, LocalStore.answer (.list "files" (.folded "ä" '→')) foldableTable
        = (.ok infos, foldableTable) ∧ own.name = "ä-x" ∧ own ∈ infos ∧ ObjectInfo.group "ä→" ∈ infos := by
  obtain ⟨hmemory, htable, -⟩ := listing_partitions_names (.folded "ä" '→') "files"
  have hshown : ∀ {described infos own folded}, (ListOptions.folded "ä" '→').Lists described infos →
      described "ä-x" = some own → described "ä→b" = some folded →
      own ∈ infos ∧ ObjectInfo.group "ä→" ∈ infos := by
    intro described infos own folded hlists hown hfolded
    obtain ⟨entry, ⟨hmem, hentry⟩, -⟩ := hlists.represented _ _ hown (by decide)
    obtain ⟨entry', ⟨hmem', hentry'⟩, -⟩ := hlists.represented _ _ hfolded (by decide)
    obtain rfl := (ListOptions.represents_iff (by decide)).1 hentry
    obtain rfl := (ListOptions.represents_iff (by decide)).1 hentry'
    exact ⟨hmem, hmem'⟩
  have hobject : ∀ name ∈ ["ä-x", "ä→b", "ä→c"], foldableStore.object? "files" name
      = some ⟨ByteArray.empty, "", Timestamp.epoch, "", none⟩ := by
    simp [foldableStore, MemoryStore.object?_place]
  have hrow : ∀ name ∈ ["ä-x", "ä→b", "ä→c"], foldableTable.row? "files" name
      = some ⟨"files", name, 0, "", "", Timestamp.epoch, none⟩ := by
    simp [foldableTable, LocalStore.row?_enter]
  refine ⟨?_, ?_⟩
  · obtain ⟨infos, hanswer, hlists⟩ := hmemory foldableStore
      (MemoryStore.mem_containers_of_object? (hobject "ä-x" (by decide)))
    have hown : ∀ name ∈ ["ä-x", "ä→b", "ä→c"], foldableStore.described "files" name
        = some ⟨name, 0, "", Timestamp.epoch, some "", none, false⟩ := by
      intro name hname
      rw [MemoryStore.described, hobject name hname]
      rfl
    obtain ⟨hown, hgroup⟩ := hshown hlists (hown "ä-x" (by decide)) (hown "ä→b" (by decide))
    exact ⟨infos, _, hanswer, rfl, hown, hgroup⟩
  · have hnamed : foldableTable.WellNamed := by
      have hname : Local.isContainerName "files" = true := by decide
      simp only [foldableTable, List.foldl_cons, List.foldl_nil]
      refine LocalStore.WellNamed.enter ?_ hname rfl
      refine LocalStore.WellNamed.enter ?_ hname rfl
      exact LocalStore.WellNamed.enter (.empty _) hname rfl
    obtain ⟨infos, hanswer, hlists⟩ := htable foldableTable hnamed
      (LocalStore.Holds.mem_containers ⟨_, hrow "ä-x" (by decide)⟩)
    have hown : ∀ name ∈ ["ä-x", "ä→b", "ä→c"], foldableTable.described "files" name
        = some ⟨name, 0, "", Timestamp.epoch, some "", none, false⟩ := by
      intro name hname
      rw [LocalStore.described, hrow name hname]
      rfl
    obtain ⟨hown, hgroup⟩ := hshown hlists (hown "ä-x" (by decide)) (hown "ä→b" (by decide))
    exact ⟨infos, _, hanswer, rfl, hown, hgroup⟩

end SegmentedFiles
