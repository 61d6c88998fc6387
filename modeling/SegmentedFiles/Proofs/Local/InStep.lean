import SegmentedFiles.Proofs.Disk.Tree
import SegmentedFiles.Proofs.Local.Rows

/-! # Table and tree in step

The table of a store on disk says which directories and files there have to be: a directory for each
container, and for each row a file and the directories that lead to it. A store is in step (`InStep`) if there are
just these, and each file has the content that its row describes. Making a container, writing an object and
deleting one keep it in step, if no two objects share a file. -/

namespace SegmentedFiles.LocalStore

open Local

variable {s t : LocalStore} {c c' n n' : String} {path front : List String} {content : Payload}
  {r : ObjectRecord} {row : Option ObjectRecord}

/-- A directory of a container, or one that leads to the file of an object. -/
def Needs (s : LocalStore) (path : List String) : Prop :=
  path = [] ∨ (∃ c ∈ s.containers, path = containerPath c) ∨
    ∃ c n, s.Holds c n ∧ path <+: payloadDirectory c n

/-- There are the directories and files that the table asks for, and no others. -/
structure InStep (s : LocalStore) : Prop where
  short : ∀ c ∈ s.containers, c.utf8ByteSize ≤ Disk.maxNameSize
  row : ∀ c n r, s.row? c n = some r →
    ∃ content, s.disk.entry? (payloadPath c n) = some (.file content) ∧ r.Describes c n content
  file : ∀ path content, s.disk.entry? path = some (.file content) →
    ∃ c n, s.Holds c n ∧ path = payloadPath c n
  directory_iff : ∀ path, s.disk.entry? path = some .directory ↔ s.Needs path
  apart : ∀ c n c' n', s.Holds c n → s.Holds c' n' → payloadPath c n = payloadPath c' n' →
    c = c' ∧ n = n'

/-- From `s` to `t` the row of one object changes, and no file but its own. -/
structure Changes (s t : LocalStore) (c n : String) (row : Option ObjectRecord) : Prop where
  containers : ∀ c', c' ∈ t.containers ↔ c' ∈ s.containers
  row? : ∀ c' n', t.row? c' n' = if c' = c ∧ n' = n then row else s.row? c' n'
  payload : ∀ c' n', s.Holds c' n' → ¬(c' = c ∧ n' = n) →
    t.disk.entry? (payloadPath c' n') = s.disk.entry? (payloadPath c' n')

theorem Needs.length_le (h : s.Needs path) : path.length ≤ 3 := by
  rcases h with rfl | ⟨c, -, rfl⟩ | ⟨c, n, -, hleads⟩
  · exact Nat.zero_le 3
  · exact show 1 ≤ 3 by decide
  · exact hleads.length_le

theorem Needs.mono (h : s.Needs path) (hcontainers : ∀ c ∈ s.containers, c ∈ t.containers)
    (hholds : ∀ c n, s.Holds c n → t.Holds c n) : t.Needs path := by
  rcases h with rfl | ⟨c, hc, rfl⟩ | ⟨c, n, h, hleads⟩
  · exact .inl rfl
  · exact .inr (.inl ⟨c, hcontainers c hc, rfl⟩)
  · exact .inr (.inr ⟨c, n, hholds c n h, hleads⟩)

theorem not_needs_payloadPath : ¬s.Needs (payloadPath c n) := fun h =>
  absurd h.length_le (show ¬4 ≤ 3 by decide)

theorem not_payloadPath_prefix_directory : ¬payloadPath c n <+: payloadDirectory c' n' := fun h =>
  absurd h.length_le (show ¬4 ≤ 3 by decide)

theorem ne_payloadPath (h : path.length ≤ 3) : path ≠ payloadPath c n := by
  rintro rfl
  exact absurd h (show ¬4 ≤ 3 by decide)

/-! ## What a change does to what is needed -/

theorem Changes.holds_some (h : s.Changes t c n (some r)) :
    t.Holds c' n' ↔ c' = c ∧ n' = n ∨ s.Holds c' n' := by
  rw [Holds, h.row?]
  split
  · next heq => exact ⟨fun _ => .inl heq, fun _ => ⟨r, rfl⟩⟩
  · next hne => exact ⟨.inr, fun h => h.resolve_left hne⟩

theorem Changes.holds_none (h : s.Changes t c n none) :
    t.Holds c' n' ↔ s.Holds c' n' ∧ ¬(c' = c ∧ n' = n) := by
  rw [Holds, h.row?]
  split
  · next heq => exact ⟨fun h => (nomatch h.choose_spec), fun h => absurd heq h.2⟩
  · next hne => exact ⟨fun h => ⟨h, hne⟩, fun h => h.1⟩

theorem Changes.needs_some (h : s.Changes t c n (some r)) :
    t.Needs path ↔ path <+: payloadDirectory c n ∨ s.Needs path := by
  constructor
  · rintro (rfl | ⟨c', hc', rfl⟩ | ⟨c', n', h', hleads⟩)
    · exact .inl List.nil_prefix
    · exact .inr (.inr (.inl ⟨c', (h.containers c').1 hc', rfl⟩))
    · rcases h.holds_some.1 h' with ⟨rfl, rfl⟩ | h'
      · exact .inl hleads
      · exact .inr (.inr (.inr ⟨c', n', h', hleads⟩))
  · rintro (hleads | hneeds)
    · exact .inr (.inr ⟨c, n, h.holds_some.2 (.inl ⟨rfl, rfl⟩), hleads⟩)
    · exact hneeds.mono (fun c' => (h.containers c').2) fun c' n' h' => h.holds_some.2 (.inr h')

/-- The path leads to the file of an object other than this one. -/
def OthersNeed (s : LocalStore) (container name : String) (path : List String) : Prop :=
  ∃ c n, s.Holds c n ∧ ¬(c = container ∧ n = name) ∧ path <+: payloadDirectory c n

theorem Changes.needs_none (h : s.Changes t c n none) (hmem : c ∈ s.containers) :
    t.Needs path ↔ s.Needs path ∧ (path ∈ prunable c n → s.OthersNeed c n path) := by
  constructor
  · intro hneeds
    refine ⟨hneeds.mono (fun c' => (h.containers c').1) fun c' n' h' => (h.holds_none.1 h').1,
      fun hpath => ?_⟩
    have hlong := (length_of_mem_prunable hpath).1
    rcases hneeds with rfl | ⟨c', -, rfl⟩ | ⟨c', n', h', hleads⟩
    · exact absurd hlong (Nat.not_lt_zero 1)
    · exact absurd hlong (Nat.lt_irrefl 1)
    · obtain ⟨h', hne⟩ := h.holds_none.1 h'
      exact ⟨c', n', h', hne, hleads⟩
  · rintro ⟨hneeds, hothers⟩
    rcases hneeds with rfl | ⟨c', hc', rfl⟩ | ⟨c', n', h', hleads⟩
    · exact .inl rfl
    · exact .inr (.inl ⟨c', (h.containers c').2 hc', rfl⟩)
    · by_cases hsame : c' = c ∧ n' = n
      · obtain ⟨rfl, rfl⟩ := hsame
        rcases prefix_payloadDirectory_iff.1 hleads with rfl | rfl | hpath
        · exact .inl rfl
        · exact .inr (.inl ⟨c', (h.containers c').2 hmem, rfl⟩)
        · obtain ⟨c₂, n₂, h₂, hne, hleads₂⟩ := hothers hpath
          exact .inr (.inr ⟨c₂, n₂, h.holds_none.2 ⟨h₂, hne⟩, hleads₂⟩)
      · exact .inr (.inr ⟨c', n', h.holds_none.2 ⟨h', hsame⟩, hleads⟩)

namespace InStep

theorem empty (now : Timestamp) : (LocalStore.empty now).InStep := by
  have hcontainers : ∀ c, c ∉ (LocalStore.empty now).containers := fun c =>
    Std.ExtTreeMap.not_mem_empty
  have hentry : ∀ path, path ≠ [] → (LocalStore.empty now).disk.entry? path = none := by
    intro path hpath
    rw [Disk.entry?_of_ne_nil hpath]
    exact Std.ExtTreeMap.getElem?_empty
  refine ⟨fun c hc => absurd hc (hcontainers c), fun c n r hr => ?_, fun path content hfile => ?_,
    fun path => ⟨fun hpath => ?_, fun hneeds => ?_⟩, fun c n _ _ h => absurd h (not_holds_empty now c n)⟩
  · exact absurd ⟨r, hr⟩ (not_holds_empty now c n)
  · by_cases hpath : path = []
    · subst hpath
      cases hfile
    · rw [hentry path hpath] at hfile
      cases hfile
  · by_contra hnot
    rw [hentry path fun heq => hnot (.inl heq)] at hpath
    cases hpath
  · rcases hneeds with rfl | ⟨c, hc, -⟩ | ⟨c, n, h, -⟩
    · rfl
    · exact absurd hc (hcontainers c)
    · exact absurd h (not_holds_empty now c n)

/-! ## The way to a file -/

theorem no_file (h : s.InStep) (hpath : path.length ≤ 3) : s.disk.entry? path ≠ some (.file content) := by
  intro hfile
  obtain ⟨c, n, -, heq⟩ := h.file path content hfile
  exact ne_payloadPath hpath heq

theorem file_of_holds (h : s.InStep) (hholds : s.Holds c n) :
    ∃ content, s.disk.entry? (payloadPath c n) = some (.file content) := by
  obtain ⟨r, hr⟩ := hholds
  obtain ⟨content, hfile, -⟩ := h.row c n r hr
  exact ⟨content, hfile⟩

theorem reaches (h : s.InStep) (hholds : s.Holds c n) : s.disk.Reaches (payloadPath c n) := by
  refine ⟨short_of_mem_payloadPath (h.short c hholds.mem_containers), fun front hfront hne => ?_⟩
  rw [h.directory_iff]
  exact .inr (.inr ⟨c, n, hholds, (prefix_payloadPath_iff.1 hfront).resolve_left hne⟩)

/-! ## Making a container -/

theorem createContainer (h : s.InStep) (hc : isContainerName c = true)
    (hshort : c.utf8ByteSize ≤ Disk.maxNameSize) :
    ∃ t, s.createContainer c = (.ok (), t) ∧ t.InStep ∧
      (∀ c', c' ∈ t.containers ↔ c' = c ∨ c' ∈ s.containers) ∧
      (∀ c' n', t.row? c' n' = s.row? c' n') ∧
      ∀ c' n', t.disk.entry? (payloadPath c' n') = s.disk.entry? (payloadPath c' n') := by
  obtain ⟨made, hmade, hentry⟩ := Disk.makeDirectories_of_short (d := s.disk) (containerPath c)
    (by
      intro name hname
      rw [containerPath, List.mem_singleton] at hname
      exact hname ▸ hshort)
    fun front content hfront => h.no_file (hfront.length_le.trans (show 1 ≤ 3 by decide))
  let t : LocalStore := { s with disk := made, containers := s.containers.insertIfNew c ∅ }
  have hcontainers : ∀ c', c' ∈ t.containers ↔ c' = c ∨ c' ∈ s.containers := fun c' => by
    rw [Std.ExtTreeMap.mem_insertIfNew, Std.LawfulEqCmp.compare_eq_iff_eq, eq_comm]
  have hrow : ∀ c' n', t.row? c' n' = s.row? c' n' := fun c' n' => by
    rw [LocalStore.row?, LocalStore.row?, records, records, getD_insertIfNew]
  have hholds : ∀ c' n', t.Holds c' n' ↔ s.Holds c' n' := fun c' n' => by
    rw [Holds, Holds, hrow]
  have hlong : ∀ path, 1 < path.length → t.disk.entry? path = s.disk.entry? path := fun path hpath => by
    rw [hentry, if_neg]
    exact fun hleads => absurd hleads.length_le (Nat.not_le.2 hpath)
  have hpayload : ∀ c' n', t.disk.entry? (payloadPath c' n') = s.disk.entry? (payloadPath c' n') :=
    fun c' n' => hlong _ (show 1 < 4 by decide)
  refine ⟨t, ?_, ⟨fun c' hc' => ?_, fun c' n' r hr => ?_, fun path content hfile => ?_, fun path => ?_,
    fun c₁ n₁ c₂ n₂ h₁ h₂ => ?_⟩, hcontainers, hrow, hpayload⟩
  · rw [LocalStore.createContainer, hc, hmade]
    rfl
  · rcases (hcontainers c').1 hc' with rfl | hc'
    · exact hshort
    · exact h.short c' hc'
  · rw [hrow] at hr
    rw [hpayload]
    exact h.row c' n' r hr
  · rw [hentry] at hfile
    split at hfile
    · cases hfile
    · obtain ⟨c', n', h', heq⟩ := h.file path content hfile
      exact ⟨c', n', (hholds c' n').2 h', heq⟩
  · have hneeds : t.Needs path ↔ path <+: containerPath c ∨ s.Needs path := by
      constructor
      · rintro (rfl | ⟨c', hc', rfl⟩ | ⟨c', n', h', hleads⟩)
        · exact .inl List.nil_prefix
        · rcases (hcontainers c').1 hc' with rfl | hc'
          · exact .inl List.prefix_rfl
          · exact .inr (.inr (.inl ⟨c', hc', rfl⟩))
        · exact .inr (.inr (.inr ⟨c', n', (hholds c' n').1 h', hleads⟩))
      · rintro (hleads | hneeds)
        · rcases List.prefix_cons_iff.1 hleads with rfl | ⟨rest, rfl, hnil⟩
          · exact .inl rfl
          · obtain rfl := List.prefix_nil.1 hnil
            exact .inr (.inl ⟨c, (hcontainers c).2 (.inl rfl), rfl⟩)
        · exact hneeds.mono (fun c' hc' => (hcontainers c').2 (.inr hc')) fun c' n' => (hholds c' n').2
    rw [hentry, hneeds, ← h.directory_iff]
    split
    · next hleads => exact ⟨fun _ => .inl hleads, fun _ => rfl⟩
    · next hnot => exact ⟨.inr, fun h => h.resolve_left hnot⟩
  · rw [hholds] at h₁ h₂
    exact h.apart c₁ n₁ c₂ n₂ h₁ h₂

/-! ## Writing an object -/

/-- Nothing is left of a draft. -/
theorem entry?_draftPath (h : s.InStep) (c n : String) : s.disk.entry? (draftPath c n) = none := by
  cases hentry : s.disk.entry? (draftPath c n) with
  | none => rfl
  | some entry =>
    cases entry with
    | directory =>
      have hlong := ((h.directory_iff _).1 hentry).length_le
      exact absurd hlong (show ¬4 ≤ 3 by decide)
    | file content =>
      obtain ⟨c', n', -, heq⟩ := h.file _ _ hentry
      exact absurd heq draftPath_ne_payloadPath

/-- Storing content in a container that is there makes its file and the directories that lead to it, and
leaves nothing else behind. -/
theorem writePayload (h : s.InStep) (content : Payload) (hmem : c ∈ s.containers) :
    ∃ disk, s.writePayload c n content = (.ok (), { s with disk }) ∧
      ∀ path, disk.entry? path = if path = payloadPath c n then some (.file content)
        else if path <+: payloadDirectory c n then some .directory else s.disk.entry? path := by
  have hshort := h.short c hmem
  have hdraft : draftPath c n ≠ [] := List.append_ne_nil_of_right_ne_nil _ (List.cons_ne_nil _ _)
  have hpayload : payloadPath c n ≠ [] := List.append_ne_nil_of_right_ne_nil _ (List.cons_ne_nil _ _)
  obtain ⟨made, hmade, hentry⟩ := Disk.makeDirectories_of_short (d := s.disk) (payloadDirectory c n)
    (fun name hname => short_of_mem_payloadPath hshort name (List.mem_append_left _ hname))
    fun front content hfront => h.no_file hfront.length_le
  have hlong : ∀ path, path.length = 4 → ¬path <+: payloadDirectory c n := fun path hpath hleads =>
    absurd (hpath ▸ hleads.length_le) (show ¬4 ≤ 3 by decide)
  have hfree : made.entry? (draftPath c n) = none := by
    rw [hentry, if_neg (hlong _ (length_draftPath c n)), h.entry?_draftPath]
  have hfile : made.entry? (payloadPath c n) ≠ some .directory := by
    rw [hentry, if_neg (hlong _ (length_payloadPath c n)), Ne, h.directory_iff]
    exact not_needs_payloadPath
  have hreaches : made.Reaches (draftPath c n) := ⟨short_of_mem_draftPath hshort,
    fun front hfront hne => by rw [hentry, if_pos ((prefix_draftPath_iff.1 hfront).resolve_left hne)]⟩
  have hwrite := Disk.writeFile_of_reaches content hreaches (by rw [hfree]; exact nofun)
  -- The draft is next to the file, so directories lead to both.
  let drafted : Disk := made.withEntry (draftPath c n) (.file content)
  have hdrafted : ∀ path, drafted.entry? path =
      if path = draftPath c n then some (.file content) else made.entry? path := fun path =>
    Disk.entry?_withEntry hdraft
  have hway : ∀ front, front <+: payloadDirectory c n → drafted.entry? front = some .directory := by
    intro front hfront
    have hne : front ≠ draftPath c n := by
      rintro rfl
      exact hlong _ (length_draftPath c n) hfront
    rw [hdrafted, if_neg hne, hentry, if_pos hfront]
  have hmove : Disk.moveFile (made.withEntry (draftPath c n) (.file content)) (draftPath c n)
      (payloadPath c n) = .ok ((drafted.without (draftPath c n)).withEntry (payloadPath c n) (.file content)) :=
    Disk.moveFile_of_reaches
      ⟨short_of_mem_draftPath hshort, fun front hfront hne =>
        hway front ((prefix_draftPath_iff.1 hfront).resolve_left hne)⟩
      ⟨short_of_mem_payloadPath hshort, fun front hfront hne =>
        hway front ((prefix_payloadPath_iff.1 hfront).resolve_left hne)⟩
      ((hdrafted _).trans (if_pos rfl))
      (by rw [hdrafted, if_neg draftPath_ne_payloadPath.symm]; exact hfile)
  refine ⟨(drafted.without (draftPath c n)).withEntry (payloadPath c n) (.file content), ?_, fun path => ?_⟩
  · simp only [LocalStore.writePayload, hmade, hwrite, hmove]
  · rw [Disk.entry?_withEntry hpayload, Disk.entry?_without hdraft, hdrafted, hentry]
    split
    · rfl
    · split
      · next heq =>
        subst heq
        rw [if_neg (hlong _ (length_draftPath c n)), h.entry?_draftPath]
      · rfl

/-- Writing an object into a container that is there provides its file and its row. -/
theorem insert (h : s.InStep) (options : PutOptions) (hn : isObjectName n = true)
    (hc : isContainerName c = true) (hmem : c ∈ s.containers)
    (hfree : ∀ c' n', s.Holds c' n' → payloadPath c' n' = payloadPath c n → c' = c ∧ n' = n) :
    ∃ t, s.insert c n content options = (.ok (), t) ∧ t.InStep ∧
      s.Changes t c n (some (s.written c n content options)) ∧
      t.disk.entry? (payloadPath c n) = some (.file content) := by
  obtain ⟨disk, hwrite, hwritten⟩ := h.writePayload (n := n) content hmem
  let t : LocalStore := { s with disk }.enter c n (s.written c n content options)
  have hdisk : ∀ path, t.disk.entry? path = if path = payloadPath c n then some (.file content)
      else if path <+: payloadDirectory c n then some .directory else s.disk.entry? path := hwritten
  have hchanges : s.Changes t c n (some (s.written c n content options)) := by
    refine ⟨fun c' => mem_insert_of_mem hmem, fun c' n' => row?_enter, fun c' n' h' hne => ?_⟩
    rw [hdisk, if_neg fun heq => hne (hfree c' n' h' heq), if_neg not_payloadPath_prefix_directory]
  have hself : t.disk.entry? (payloadPath c n) = some (.file content) := by rw [hdisk, if_pos rfl]
  refine ⟨t, ?_, ⟨fun c' hc' => h.short c' ((hchanges.containers c').1 hc'), fun c' n' r hr => ?_,
    fun path content hfile => ?_, fun path => ?_, fun c₁ n₁ c₂ n₂ h₁ h₂ heq => ?_⟩, hchanges, hself⟩
  · rw [LocalStore.insert, hn, checkContainer_of_mem hc hmem]
    simp only [hwrite]
    rfl
  · rw [hchanges.row?] at hr
    split at hr
    · next heq =>
      obtain ⟨rfl, rfl⟩ := heq
      cases hr
      exact ⟨content, hself, rfl, rfl, rfl, rfl⟩
    · next hne =>
      rw [hchanges.payload c' n' ⟨r, hr⟩ hne]
      exact h.row c' n' r hr
  · rw [hdisk] at hfile
    split at hfile
    · next heq => exact ⟨c, n, hchanges.holds_some.2 (.inl ⟨rfl, rfl⟩), heq⟩
    · split at hfile
      · cases hfile
      · obtain ⟨c', n', h', heq⟩ := h.file path content hfile
        exact ⟨c', n', hchanges.holds_some.2 (.inr h'), heq⟩
  · rw [hdisk, hchanges.needs_some, ← h.directory_iff]
    split
    · next heq =>
      subst heq
      refine ⟨nofun, fun h' => ?_⟩
      rw [h.directory_iff] at h'
      exact absurd h' (not_or.2 ⟨not_payloadPath_prefix_directory, not_needs_payloadPath⟩)
    · split
      · next hleads => exact ⟨fun _ => .inl hleads, fun _ => rfl⟩
      · next hnot => exact ⟨.inr, fun h => h.resolve_left hnot⟩
  · rcases hchanges.holds_some.1 h₁ with ⟨rfl, rfl⟩ | hleft
    · rcases hchanges.holds_some.1 h₂ with ⟨rfl, rfl⟩ | hright
      · exact ⟨rfl, rfl⟩
      · obtain ⟨rfl, rfl⟩ := hfree c₂ n₂ hright heq.symm
        exact ⟨rfl, rfl⟩
    · rcases hchanges.holds_some.1 h₂ with ⟨rfl, rfl⟩ | hright
      · exact hfree c₁ n₁ hleft heq
      · exact h.apart c₁ n₁ c₂ n₂ hleft hright heq

/-! ## Deleting an object -/

/-- Once the file of an object is gone, of the directories that led to it those are bare that no other object
needs. -/
theorem bare_iff (h : s.InStep) (hholds : s.Holds c n) (hpath : path ∈ prunable c n) :
    (s.disk.without (payloadPath c n)).Bare (prunable c n) path ↔ ¬s.OthersNeed c n path := by
  have hentry : ∀ below, Disk.entry? (s.disk.without (payloadPath c n)) below =
      if below = payloadPath c n then none else s.disk.entry? below :=
    fun below => Disk.entry?_without (List.cons_ne_nil _ _)
  constructor
  · rintro hbare ⟨c', n', h', hne, hleads⟩
    obtain ⟨content, hfile⟩ := h.file_of_holds h'
    have hthere : Disk.entry? (s.disk.without (payloadPath c n)) (payloadPath c' n')
        = some (.file content) := by
      rw [hentry, if_neg fun heq => hne (h.apart c' n' c n h' hholds heq), hfile]
    have hmem := hbare.2 _ _ hthere (prefix_payloadPath_iff.2 (.inr hleads))
    exact payloadPath_not_mem_prunable hmem
  · intro hnone
    refine ⟨hpath, fun below entry hthere hbelow => ?_⟩
    have hlong := Nat.lt_of_lt_of_le (length_of_mem_prunable hpath).1 hbelow.length_le
    rw [hentry] at hthere
    split at hthere
    · cases hthere
    next hne =>
    cases entry with
    | file content =>
      obtain ⟨c', n', h', rfl⟩ := h.file below content hthere
      refine absurd ⟨c', n', h', ?_, (prefix_payloadPath_iff.1 hbelow).resolve_left ?_⟩ hnone
      · rintro ⟨rfl, rfl⟩
        exact hne rfl
      · exact ne_payloadPath (length_of_mem_prunable hpath).2
    | directory =>
      rcases (h.directory_iff below).1 hthere with rfl | ⟨c', -, rfl⟩ | ⟨c', n', h', hleads⟩
      · exact absurd hlong (Nat.not_lt_zero 1)
      · exact absurd hlong (Nat.lt_irrefl 1)
      · by_cases hsame : c' = c ∧ n' = n
        · obtain ⟨rfl, rfl⟩ := hsame
          rcases prefix_payloadDirectory_iff.1 hleads with rfl | rfl | hmem
          · exact absurd hlong (Nat.not_lt_zero 1)
          · exact absurd hlong (Nat.lt_irrefl 1)
          · exact hmem
        · exact absurd ⟨c', n', h', hsame, hbelow.trans hleads⟩ hnone

/-- Without the file of an object and the directories that are bare then, everything else is as it was. -/
theorem entry?_pruned (h : s.InStep) (hholds : s.Holds c n) (path : List String) :
    Disk.entry? ((s.disk.without (payloadPath c n)).removeDirectories (prunable c n)) path =
        s.disk.entry? path ∧ path ≠ payloadPath c n ∧ (path ∈ prunable c n → s.OthersNeed c n path) ∨
      Disk.entry? ((s.disk.without (payloadPath c n)).removeDirectories (prunable c n)) path = none ∧
        (path = payloadPath c n ∨ path ∈ prunable c n ∧ ¬s.OthersNeed c n path) := by
  let bare : Disk := s.disk.without (payloadPath c n)
  have hbare : ∀ path, bare.entry? path = if path = payloadPath c n then none else s.disk.entry? path :=
    fun path => Disk.entry?_without (List.cons_ne_nil _ _)
  have hway : ∀ path, path <+: payloadDirectory c n → bare.entry? path = some .directory := by
    intro path hleads
    rw [hbare, if_neg (ne_payloadPath hleads.length_le), h.directory_iff]
    exact .inr (.inr ⟨c, n, hholds, hleads⟩)
  have hprunable : ∀ path ∈ prunable c n, path <+: payloadDirectory c n := fun path hpath =>
    prefix_payloadDirectory_iff.2 (.inr (.inr hpath))
  have hreaches : ∀ path ∈ prunable c n, bare.Reaches path := fun path hpath =>
    ⟨fun name hname => (h.reaches hholds).short name
        (((hprunable path hpath).trans (List.prefix_append _ _)).subset hname),
      fun front hfront _ => hway front (hfront.trans (hprunable path hpath))⟩
  obtain ⟨hgone, hkept⟩ := Disk.entry?_removeDirectories hreaches
    (fun path hpath => hway path (hprunable path hpath))
    (fun hnil => absurd (length_of_mem_prunable hnil).1 (Nat.not_lt_zero 1)) (prunable_within c n) path
  by_cases hb : bare.Bare (prunable c n) path
  · exact .inr ⟨hgone hb, .inr ⟨hb.1, (h.bare_iff hholds hb.1).1 hb⟩⟩
  · rw [hkept hb, hbare]
    split
    · next heq => exact .inr ⟨rfl, .inl heq⟩
    · next hne =>
      exact .inl ⟨rfl, hne, fun hpath => by_contra fun hnot => hb ((h.bare_iff hholds hpath).2 hnot)⟩

/-- Deleting an object takes its row and its file away, and the directories that no other object needs. -/
theorem erase (h : s.InStep) (hholds : s.Holds c n) :
    ∃ t, s.erase c n = (.ok (), t) ∧ t.InStep ∧ s.Changes t c n none := by
  obtain ⟨content, hfile⟩ := h.file_of_holds hholds
  have hremove := Disk.removeFile_of_file (h.reaches hholds) hfile
  let t : LocalStore := { s with
    disk := (s.disk.without (payloadPath c n)).removeDirectories (prunable c n) }.strike c n
  have hdisk := h.entry?_pruned hholds
  have hchanges : s.Changes t c n none := by
    refine ⟨fun c' => mem_insert_of_mem hholds.mem_containers, fun c' n' => row?_strike,
      fun c' n' h' hne => ?_⟩
    rcases hdisk (payloadPath c' n') with ⟨hsame, -⟩ | ⟨-, heq | ⟨hmem, -⟩⟩
    · exact hsame
    · exact absurd (h.apart c' n' c n h' hholds heq) hne
    · exact absurd hmem payloadPath_not_mem_prunable
  refine ⟨t, ?_, ⟨fun c' hc' => h.short c' ((hchanges.containers c').1 hc'), fun c' n' r hr => ?_,
    fun path content hfile => ?_, fun path => ?_, fun c₁ n₁ c₂ n₂ h₁ h₂ =>
      h.apart c₁ n₁ c₂ n₂ (hchanges.holds_none.1 h₁).1 (hchanges.holds_none.1 h₂).1⟩, hchanges⟩
  · rw [LocalStore.erase, if_pos (contains_records.2 hholds)]
    simp only [hremove]
    rfl
  · obtain ⟨h', hne⟩ := hchanges.holds_none.1 ⟨r, hr⟩
    rw [hchanges.row?, if_neg hne] at hr
    rw [hchanges.payload c' n' h' hne]
    exact h.row c' n' r hr
  · rcases hdisk path with ⟨hsame, hne, -⟩ | ⟨hnone, -⟩
    · obtain ⟨c', n', h', rfl⟩ := h.file path content (hsame.symm.trans hfile)
      refine ⟨c', n', hchanges.holds_none.2 ⟨h', ?_⟩, rfl⟩
      rintro ⟨rfl, rfl⟩
      exact hne rfl
    · exact nomatch hnone.symm.trans hfile
  · rw [hchanges.needs_none hholds.mem_containers, ← h.directory_iff]
    rcases hdisk path with ⟨hsame, -, hothers⟩ | ⟨hnone, hgone⟩
    · exact ⟨fun hpath => ⟨hsame.symm.trans hpath, hothers⟩, fun hpath => hsame.trans hpath.1⟩
    · refine ⟨fun hpath => (nomatch hnone.symm.trans hpath), fun hpath => ?_⟩
      rcases hgone with rfl | ⟨hmem, hnot⟩
      · exact absurd ((h.directory_iff _).1 hpath.1) not_needs_payloadPath
      · exact absurd (hpath.2 hmem) hnot

theorem erase_of_not_holds (h : ¬s.Holds c n) : s.erase c n = (.error .notFound, s) := by
  rw [LocalStore.erase, if_neg (mt contains_records.1 h)]

end InStep

end SegmentedFiles.LocalStore
