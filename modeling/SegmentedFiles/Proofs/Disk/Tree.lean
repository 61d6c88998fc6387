import Mathlib.Data.List.Basic
import SegmentedFiles.Disk.Tree

/-! # Operations on trees of files

An operation on a tree is known by what is found at each path after it. Where directories lead to a path,
the system gets there (`Disk.Reaches`), and files can be read, written and removed. Directories are removed
only where nothing is below them: the paths in order that come after one of them begin with those below
it (`Disk.hasChildren_iff`). -/

namespace SegmentedFiles

/-! ## The order of paths -/

/-- The next key is the first of those that come after. -/
theorem getKeyGT?_eq_find? {α β : Type} [Ord α] [Std.TransOrd α] [Std.LawfulEqOrd α]
    (entries : Std.ExtTreeMap α β) (key : α) :
    entries.getKeyGT? key = entries.keys.find? fun other => (compare other key).isGT := by
  obtain ⟨inner⟩ := entries
  change inner.getKeyGT? key = inner.keys.find? _
  induction inner using Std.ExtDTreeMap.inductionOn with
  | mk t =>
    change t.inner.getKeyGT? key = t.inner.keys.find? _
    rw [Std.DTreeMap.Internal.Impl.getKeyGT?_eq_getEntryGT?,
      Std.DTreeMap.Internal.Impl.getEntryGT?_eq_find? t.2.ordered,
      Std.DTreeMap.Internal.Impl.keys_eq_keys, Std.Internal.List.keys_eq_map, List.find?_map]
    rfl

theorem compare_cons (name name' : String) (rest rest' : List String) :
    compare (name :: rest) (name' :: rest') = (compare name name').then (compare rest rest') := by
  simp only [List.compare_eq_compareLex, List.compareLex_cons_cons]

/-- What lies below a path comes after it. -/
theorem compare_append_self {path below : List String} (h : below ≠ []) :
    compare (path ++ below) path = .gt := by
  induction path with
  | nil =>
    obtain ⟨name, rest, rfl⟩ := List.exists_cons_of_ne_nil h
    rfl
  | cons name rest ih =>
    rw [List.cons_append, compare_cons, Std.compare_self]
    exact ih

/-- What comes after a path and does not lie below it comes after all that does. -/
theorem compare_append_of_not_prefix {path other : List String} (below : List String)
    (h : compare other path = .gt) (hnot : ¬path <+: other) : compare other (path ++ below) = .gt := by
  induction path generalizing other with
  | nil => exact absurd List.nil_prefix hnot
  | cons name rest ih =>
    cases other with
    | nil => cases h
    | cons first others =>
      rw [compare_cons] at h
      rw [List.cons_append, compare_cons]
      cases hfirst : compare first name with
      | lt =>
        rw [hfirst] at h
        cases h
      | gt => rfl
      | eq =>
        rw [hfirst] at h
        obtain rfl := Std.LawfulEqCmp.eq_of_compare hfirst
        rw [List.cons_prefix_cons] at hnot
        exact ih h fun hleads => hnot ⟨rfl, hleads⟩

namespace Disk

variable {d t : Disk} {path other front : List String} {entry : DiskEntry} {content : Payload}

/-- Put an entry at a path. -/
def withEntry (d : Disk) (path : List String) (entry : DiskEntry) : Disk := ⟨d.entries.insert path entry⟩

/-- Take the entry at a path away. -/
def without (d : Disk) (path : List String) : Disk := ⟨d.entries.erase path⟩

theorem entry?_nil (d : Disk) : d.entry? [] = some .directory := rfl

theorem entry?_of_ne_nil (h : path ≠ []) : d.entry? path = d.entries[path]? := by
  unfold Disk.entry?
  rw [if_neg]
  simpa using h

theorem entry?_withEntry (hpath : path ≠ []) :
    entry? (d.withEntry path entry) other = if other = path then some entry else d.entry? other := by
  by_cases hother : other = []
  · subst hother
    rw [if_neg (Ne.symm hpath), entry?_nil, entry?_nil]
  · rw [entry?_of_ne_nil hother, entry?_of_ne_nil hother, withEntry, Std.ExtTreeMap.getElem?_insert]
    simp only [Std.compare_eq_iff_eq, eq_comm (a := path)]

theorem entry?_without (hpath : path ≠ []) :
    entry? (d.without path) other = if other = path then none else d.entry? other := by
  by_cases hother : other = []
  · subst hother
    rw [if_neg (Ne.symm hpath), entry?_nil, entry?_nil]
  · rw [entry?_of_ne_nil hother, entry?_of_ne_nil hother, without, Std.ExtTreeMap.getElem?_erase]
    simp only [Std.compare_eq_iff_eq, eq_comm (a := path)]

/-! ## The way to a path -/

/-- The system gets to the last name of a path: no name is too long, and directories lead there. -/
structure Reaches (d : Disk) (path : List String) : Prop where
  short : ∀ name ∈ path, name.utf8ByteSize ≤ maxNameSize
  directories : ∀ front, front <+: path → front ≠ path → d.entry? front = some .directory

theorem Reaches.obstacle? (h : d.Reaches path) : d.obstacle? [] path = none := by
  have hgo : ∀ walked rest, (∀ name ∈ rest, name.utf8ByteSize ≤ maxNameSize) →
      (∀ front, front <+: rest → front ≠ rest → d.entry? (walked ++ front) = some .directory) →
      d.obstacle? walked rest = none := by
    intro walked rest
    induction rest generalizing walked with
    | nil => exact fun _ _ => rfl
    | cons name rest ih =>
      intro hshort hdirectories
      unfold Disk.obstacle?
      rw [if_neg (Nat.not_lt.2 (hshort name List.mem_cons_self))]
      split
      · rfl
      · next hrest =>
        have hne : [name] ≠ name :: rest := by
          intro heq
          rw [← (List.cons.inj heq).2] at hrest
          exact hrest rfl
        rw [hdirectories [name] (List.cons_prefix_cons.2 ⟨rfl, List.nil_prefix⟩) hne]
        refine ih _ (fun n hn => hshort n (List.mem_cons_of_mem _ hn)) fun front hfront hne => ?_
        rw [List.append_assoc]
        exact hdirectories (name :: front) (List.cons_prefix_cons.2 ⟨rfl, hfront⟩) fun heq =>
          hne (List.cons.inj heq).2
  exact hgo [] path h.short h.directories

theorem Reaches.find_of_some (h : d.Reaches path) (hentry : d.entry? path = some entry) :
    d.find path = .ok entry := by
  simp only [Disk.find, h.obstacle?, hentry]

theorem Reaches.find_of_none (h : d.Reaches path) (hentry : d.entry? path = none) :
    d.find path = .error .noEntry := by
  simp only [Disk.find, h.obstacle?, hentry]

theorem readFile_of_file (h : d.Reaches path) (hfile : d.entry? path = some (.file content)) :
    d.readFile path = .ok content := by
  rw [readFile, h.find_of_some hfile]

theorem writeFile_of_reaches (content : Payload) (h : d.Reaches path)
    (hentry : d.entry? path ≠ some .directory) :
    d.writeFile path content = .ok (d.withEntry path (.file content)) := by
  cases hfound : d.entry? path with
  | none =>
    rw [writeFile, h.find_of_none hfound]
    simp only [h.obstacle?]
    rfl
  | some entry =>
    rw [writeFile, h.find_of_some hfound]
    cases entry with
    | directory => exact absurd hfound hentry
    | file _ => rfl

theorem removeFile_of_file (h : d.Reaches path) (hfile : d.entry? path = some (.file content)) :
    d.removeFile path = .ok (d.without path) := by
  rw [removeFile, h.find_of_some hfile]
  rfl

/-- A file is found at its new path and no longer at the one it had. -/
theorem moveFile_of_reaches (h : d.Reaches path) (hother : d.Reaches other)
    (hfile : d.entry? path = some (.file content)) (hentry : d.entry? other ≠ some .directory) :
    d.moveFile path other = .ok ((d.without path).withEntry other (.file content)) := by
  have hpath : path ≠ [] := by
    rintro rfl
    cases hfile
  have hreaches : (d.without path).Reaches other := by
    refine ⟨hother.short, fun front hfront hne => ?_⟩
    have hthere := hother.directories front hfront hne
    rw [entry?_without hpath, if_neg, hthere]
    rintro rfl
    cases hfile.symm.trans hthere
  have hfree : entry? (d.without path) other ≠ some .directory := by
    rw [entry?_without hpath]
    split
    · exact nofun
    · exact hentry
  have hwrite := writeFile_of_reaches content hreaches hfree
  rw [moveFile, readFile_of_file h hfile]
  exact hwrite

/-! ## Directories -/

/-- From a directory that has been walked to, those of the rest of the path are made; nothing else
changes. -/
theorem makeDirectories_go (walked : List String) {rest : List String}
    (hshort : ∀ name ∈ rest, name.utf8ByteSize ≤ maxNameSize)
    (hway : ∀ front content, front <+: rest → d.entry? (walked ++ front) ≠ some (.file content)) :
    ∃ t, makeDirectories.go d walked rest = (.ok (), t) ∧
      (∀ front, front ≠ [] → front <+: rest → t.entry? (walked ++ front) = some .directory) ∧
      ∀ other, (∀ front, front ≠ [] → front <+: rest → other ≠ walked ++ front) →
        t.entry? other = d.entry? other := by
  induction rest generalizing walked d with
  | nil => exact ⟨d, rfl, fun front hne hfront => absurd (List.prefix_nil.1 hfront) hne, fun _ _ => rfl⟩
  | cons name rest ih =>
    have hname : [name] <+: name :: rest := List.cons_prefix_cons.2 ⟨rfl, List.nil_prefix⟩
    have hassoc : ∀ front, walked ++ name :: front = walked ++ [name] ++ front := fun front => by
      rw [List.append_assoc, List.singleton_append]
    -- Whether the next directory is there or is made, the rest is made below it.
    have hgoes : ∀ d' : Disk, (∀ other, d'.entry? other =
        if other = walked ++ [name] then some .directory else d.entry? other) →
        ∃ t, makeDirectories.go d' (walked ++ [name]) rest = (.ok (), t) ∧
          (∀ front, front ≠ [] → front <+: name :: rest →
            t.entry? (walked ++ front) = some .directory) ∧
          ∀ other, (∀ front, front ≠ [] → front <+: name :: rest → other ≠ walked ++ front) →
            t.entry? other = d.entry? other := by
      intro d' hd'
      obtain ⟨t, ht, hmade, hkept⟩ := ih (d := d') (walked ++ [name])
        (fun n hn => hshort n (List.mem_cons_of_mem _ hn)) (fun front content hfront => by
          rw [hd', ← hassoc]
          split
          · exact fun h => by cases h
          · exact hway (name :: front) content (List.cons_prefix_cons.2 ⟨rfl, hfront⟩))
      refine ⟨t, ht, fun front hne hfront => ?_, fun other hother => ?_⟩
      · obtain ⟨first, below, rfl⟩ := List.exists_cons_of_ne_nil hne
        obtain ⟨rfl, hbelow⟩ := List.cons_prefix_cons.1 hfront
        rw [hassoc]
        by_cases hnil : below = []
        · subst hnil
          rw [List.append_nil, hkept _ fun front hne _ heq => hne (List.self_eq_append_right.1 heq), hd',
            if_pos rfl]
        · exact hmade below hnil hbelow
      · rw [hkept other fun front hne hfront heq => hother (name :: front) (List.cons_ne_nil _ _)
            (List.cons_prefix_cons.2 ⟨rfl, hfront⟩) (heq.trans (hassoc front).symm), hd',
          if_neg (hother [name] (List.cons_ne_nil _ _) hname)]
    unfold makeDirectories.go
    dsimp only
    rw [if_neg (Nat.not_lt.2 (hshort name List.mem_cons_self))]
    split
    · next hthere =>
      refine hgoes d fun other => ?_
      split
      · next heq => rw [heq, hthere]
      · rfl
    · next content hfile => exact absurd hfile (hway [name] content hname)
    · exact hgoes _ fun other => entry?_withEntry (by simp)

/-- If no name of a path is too long and no file is in the way, its directories are there then. -/
theorem makeDirectories_of_short (path : List String)
    (hshort : ∀ name ∈ path, name.utf8ByteSize ≤ maxNameSize)
    (hway : ∀ front content, front <+: path → d.entry? front ≠ some (.file content)) :
    ∃ t, d.makeDirectories path = (.ok (), t) ∧
      ∀ other, t.entry? other = if other <+: path then some .directory else d.entry? other := by
  obtain ⟨t, ht, hmade, hkept⟩ := makeDirectories_go [] hshort hway
  refine ⟨t, ht, fun other => ?_⟩
  split
  · next hother =>
    by_cases hnil : other = []
    · subst hnil
      rfl
    · exact hmade other hnil hother
  · next hother => exact hkept other fun front _ hfront heq => hother (heq ▸ hfront)

theorem makeDirectories_of_long {name : String} (h : maxNameSize < name.utf8ByteSize) :
    d.makeDirectories [name] = (.error .nameTooLong, d) := by
  simp only [makeDirectories, makeDirectories.go, if_pos h]

/-- A path has something below it exactly if the next path in order begins with it. -/
theorem hasChildren_iff : d.hasChildren path = true ↔
    ∃ below entry, d.entry? below = some entry ∧ path <+: below ∧ below ≠ path := by
  have hmem : ∀ other, other ∈ d.entries.keys ↔ ∃ entry, d.entries[other]? = some entry := by
    intro other
    rw [Std.ExtTreeMap.mem_keys, Std.ExtTreeMap.mem_iff_isSome_getElem?, Option.isSome_iff_exists]
  have hafter : ∀ {below}, below ≠ [] → (compare (path ++ below) path).isGT = true := by
    intro below h
    rw [compare_append_self h]
    rfl
  unfold hasChildren
  rw [getKeyGT?_eq_find?]
  constructor
  · intro h
    split at h
    · next next hnext =>
      have hgt := List.find?_some hnext
      have hne : next ≠ path := by
        rintro rfl
        rw [Std.compare_self] at hgt
        cases hgt
      have hleads : path <+: next := List.isPrefixOf_iff_prefix.1 h
      obtain ⟨entry, hentry⟩ := (hmem next).1 (List.mem_of_find?_eq_some hnext)
      refine ⟨next, entry, ?_, hleads, hne⟩
      rwa [entry?_of_ne_nil]
      rintro rfl
      exact hne (List.prefix_nil.1 hleads).symm
    · cases h
  · intro h
    obtain ⟨other, entry, hentry, ⟨below, rfl⟩, hne⟩ := h
    have hbelow : below ≠ [] := by
      rintro rfl
      exact hne (List.append_nil path)
    rw [entry?_of_ne_nil (List.append_ne_nil_of_right_ne_nil _ hbelow)] at hentry
    have hin := (hmem _).2 ⟨entry, hentry⟩
    cases hnext : d.entries.keys.find? fun other => (compare other path).isGT with
    | none => exact absurd (hafter hbelow) (List.find?_eq_none.1 hnext _ hin)
    | some next =>
      dsimp only
      rw [List.isPrefixOf_iff_prefix]
      by_contra hnot
      obtain ⟨hfirst, before, behind, hkeys, hbefore⟩ := List.find?_eq_some_iff_append.1 hnext
      have hlater := compare_append_of_not_prefix below (by simpa using hfirst) hnot
      -- What lies below is listed, but the next path comes first among those after this one.
      rw [hkeys] at hin
      rcases List.mem_append.1 hin with hin | hin
      · have hnotafter := hbefore _ hin
        rw [hafter hbelow] at hnotafter
        cases hnotafter
      rcases List.mem_cons.1 hin with rfl | hin
      · rw [Std.compare_self] at hlater
        cases hlater
      · have hordered := Std.ExtTreeMap.ordered_keys (t := d.entries)
        rw [hkeys, List.pairwise_append] at hordered
        have hlt := (List.pairwise_cons.1 hordered.2.1).1 _ hin
        rw [hlater] at hlt
        cases hlt

theorem removeDirectory_of_reaches (h : d.Reaches path) (hdirectory : d.entry? path = some .directory) :
    d.removeDirectory path =
      if d.hasChildren path then .error .notEmpty else .ok (d.without path) := by
  rw [removeDirectory, h.find_of_some hdirectory]
  rfl

/-- A path is one of these and nothing else lies at it or below it. -/
def Bare (d : Disk) (paths : List (List String)) (path : List String) : Prop :=
  path ∈ paths ∧ ∀ below entry, d.entry? below = some entry → path <+: below → below ∈ paths

/-- Once the innermost directory is removed, the others are bare if they were. -/
theorem bare_without_iff {paths : List (List String)} (hpath : path ≠ []) (hother : other ≠ path) :
    (d.without path).Bare paths other ↔ d.Bare (path :: paths) other := by
  refine and_congr ⟨List.mem_cons_of_mem _, fun h => (List.mem_cons.1 h).resolve_left hother⟩ ?_
  refine forall_congr' fun below => forall_congr' fun entry => ?_
  rw [entry?_without hpath, List.mem_cons]
  split
  · next heq => exact ⟨fun _ _ _ => .inl heq, fun _ h => by cases h⟩
  · next hne => simp only [hne, false_or]

/-- What is removed within a directory does not stand in its way. -/
theorem Reaches.without (h : d.Reaches other) (hpath : path ≠ []) (hwithin : other <+: path)
    (hother : other ≠ path) : (d.without path).Reaches other := by
  refine ⟨h.short, fun front hfront hne => ?_⟩
  rw [entry?_without hpath, if_neg, h.directories front hfront hne]
  rintro rfl
  exact hother (hwithin.eq_of_length_le hfront.length_le)

/-- Of directories one within the other, from the innermost on, those are removed that nothing else is
below. -/
theorem entry?_removeDirectories {paths : List (List String)}
    (hreaches : ∀ path ∈ paths, d.Reaches path)
    (hdirectory : ∀ path ∈ paths, d.entry? path = some .directory) (hroot : [] ∉ paths)
    (hwithin : paths.Pairwise fun path outer => outer <+: path ∧ outer ≠ path) (other : List String) :
    (d.Bare paths other → entry? (d.removeDirectories paths) other = none) ∧
      (¬d.Bare paths other → entry? (d.removeDirectories paths) other = d.entry? other) := by
  induction paths generalizing d with
  | nil => exact ⟨fun h => absurd h.1 List.not_mem_nil, fun _ => rfl⟩
  | cons path rest ih =>
    obtain ⟨houter, hrest⟩ := List.pairwise_cons.1 hwithin
    rw [List.mem_cons, not_or] at hroot
    have hremove := removeDirectory_of_reaches (hreaches path List.mem_cons_self)
      (hdirectory path List.mem_cons_self)
    by_cases hchildren : d.hasChildren path = true
    · -- Nothing is removed: what is below this directory is below all the others.
      obtain ⟨below, entry, hentry, hbelow, hne⟩ := hasChildren_iff.1 hchildren
      rw [if_pos hchildren] at hremove
      rw [removeDirectories, hremove]
      refine ⟨fun h => ?_, fun _ => rfl⟩
      have hleads : other <+: below := by
        rcases List.mem_cons.1 h.1 with rfl | hmem
        · exact hbelow
        · exact (houter other hmem).1.trans hbelow
      rcases List.mem_cons.1 (h.2 below entry hentry hleads) with heq | hmem
      · exact absurd heq hne
      · exact absurd ((houter below hmem).1.eq_of_length_le hbelow.length_le) hne
    · rw [if_neg hchildren] at hremove
      rw [removeDirectories, hremove]
      have hpath : path ≠ [] := Ne.symm hroot.1
      have hnotbelow : ∀ below entry, d.entry? below = some entry → path <+: below → below = path := by
        intro below entry hentry hleads
        by_contra hne
        exact hchildren (hasChildren_iff.2 ⟨below, entry, hentry, hleads, hne⟩)
      have hreaches' : ∀ outer ∈ rest, (d.without path).Reaches outer := fun outer hmem =>
        (hreaches outer (List.mem_cons_of_mem _ hmem)).without hpath (houter outer hmem).1
          (houter outer hmem).2
      have hdirectory' : ∀ outer ∈ rest, entry? (d.without path) outer = some .directory := by
        intro outer hmem
        rw [entry?_without hpath, if_neg (houter outer hmem).2]
        exact hdirectory outer (List.mem_cons_of_mem _ hmem)
      obtain ⟨hgone, hkept⟩ := ih hreaches' hdirectory' hroot.2 hrest
      by_cases hother : other = path
      · subst hother
        have hnot : ¬(d.without other).Bare rest other := fun h => (houter other h.1).2 rfl
        have hnone : entry? ((d.without other).removeDirectories rest) other = none := by
          rw [hkept hnot, entry?_without hpath, if_pos rfl]
        refine ⟨fun _ => hnone, fun h => absurd ⟨List.mem_cons_self, fun below entry hentry hleads => ?_⟩ h⟩
        exact hnotbelow below entry hentry hleads ▸ List.mem_cons_self
      · rw [← bare_without_iff hpath hother]
        exact ⟨hgone, fun h => (hkept h).trans (by rw [entry?_without hpath, if_neg hother])⟩

end Disk

end SegmentedFiles
