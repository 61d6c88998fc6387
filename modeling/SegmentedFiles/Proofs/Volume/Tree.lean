import SegmentedFiles.Proofs.Volume.Changes
import SegmentedFiles.Proofs.Volume.Exact

/-! # Directories above every object

In a tree the markers of directories are above each object, so that nothing lies below a file. Writes and
removals keep this. To store a file where a directory is, or to move a file there or a directory
elsewhere, is not refused; it leaves a tree exactly if the directory has nothing in it that would be left
without one (`Operation.SparesDirectories`, `tree_of_completes`). -/

namespace SegmentedFiles

theorem StoredObject.IsMarker.not_file {o : StoredObject} (h : o.IsMarker) :
    o.contentType ≠ Volume.fileType := by
  rw [h.contentType]
  decide

namespace Volume

open Interaction (Outcome)
open MemoryStore (answer SameBut Without)
open VolumeAction

variable {v : Volume} {m t u start : MemoryStore} {path dir source target : String} {paths : List String}
  {o : StoredObject}

/-- There is the marker of a directory at a path. -/
def HasMarker (v : Volume) (m : MemoryStore) (path : String) : Prop :=
  ∃ o, m.object? v.container (v.storeName path) = some o ∧ o.IsMarker

/-- Each object is at a path, and it is the marker of a directory or the object of a file. -/
structure Typed (v : Volume) (m : MemoryStore) : Prop where
  path : ∀ name o, m.object? v.container name = some o →
    ∃ path, Path.isBelowRoot path = true ∧ name = v.storeName path
  kind : ∀ name o, m.object? v.container name = some o → o.IsMarker ∨ o.contentType = fileType

/-- Above each object there are the markers of directories. -/
def Tree (v : Volume) (m : MemoryStore) : Prop :=
  ∀ path o, Path.isBelowRoot path = true → m.object? v.container (v.storeName path) = some o →
    ∀ dir ∈ Path.ancestors path, v.HasMarker m dir

/-- Below `dir` there is nothing but what is at `paths`. -/
def OnlyBelow (v : Volume) (m : MemoryStore) (paths : List String) (dir : String) : Prop :=
  ∀ path o, Path.isBelowRoot path = true → m.object? v.container (v.storeName path) = some o →
    dir ∈ Path.ancestors path → path ∈ paths

theorem Typed.isMarker {name : String} (hm : v.Typed m) (ho : m.object? v.container name = some o)
    (htype : o.contentType = directoryType) : o.IsMarker := by
  refine (hm.kind name o ho).resolve_right ?_
  rw [htype]
  decide

/-- Nothing is below what is no directory. -/
theorem Tree.onlyBelow (hm : v.Tree m) (hnot : ¬v.HasMarker m dir) : v.OnlyBelow m paths dir :=
  fun path o hpath ho hdir => absurd (hm path o hpath ho dir hdir) hnot

theorem Typed.marked (hm : v.Typed m) (hpath : Path.isBelowRoot path = true) (h : v.Marked path m t) :
    v.Typed t := by
  constructor
  · intro name o ho
    rcases h v.container name with hsame | ⟨-, ⟨dir, hdir, rfl⟩, -⟩
    · exact hm.path name o (hsame ▸ ho)
    · exact ⟨dir, Path.isBelowRoot_of_mem_ancestors hpath hdir, rfl⟩
  · intro name o ho
    rcases h v.container name with hsame | ⟨-, -, -, o', ho', hmarker⟩
    · exact hm.kind name o (hsame ▸ ho)
    · rw [ho] at ho'
      exact .inl (Option.some.inj ho' ▸ hmarker)

theorem Typed.without {gone : String → String → Prop} (hm : v.Typed m) (h : Without gone m t) :
    v.Typed t :=
  ⟨fun name o ho => hm.path name o ((h.object _ _ _).1 ho).1,
    fun name o ho => hm.kind name o ((h.object _ _ _).1 ho).1⟩

/-- What is at the paths of a change has to be of one of the two kinds. -/
theorem Typed.change (hu : v.Typed u) (hpaths : ∀ path ∈ paths, Path.isBelowRoot path = true)
    (hsame : SameBut (fun c n => ∃ path ∈ paths, v.Places (v.storeName path) c n) u t)
    (hkind : ∀ path ∈ paths, ∀ o, t.object? v.container (v.storeName path) = some o →
      o.IsMarker ∨ o.contentType = fileType) : v.Typed t := by
  have hobject : ∀ name, (∃ path ∈ paths, name = v.storeName path) ∨
      t.object? v.container name = u.object? v.container name := by
    intro name
    by_cases hname : ∃ path ∈ paths, name = v.storeName path
    · exact .inl hname
    · exact .inr (object_of_places hsame fun path hpath heq => hname ⟨path, hpath, heq⟩)
  constructor
  · intro name o ho
    rcases hobject name with ⟨path, hpath, rfl⟩ | hname
    · exact ⟨path, hpaths path hpath, rfl⟩
    · exact hu.path name o (hname ▸ ho)
  · intro name o ho
    rcases hobject name with ⟨path, hpath, rfl⟩ | hname
    · exact hkind path hpath o ho
    · exact hu.kind name o (hname ▸ ho)

/-! ## Directories that are made -/

/-- Where an operation has come to its file, markers are above that. -/
theorem Tree.hasMarker_of_reached (hm : v.Tree m) (hu : v.Typed u) (hpath : Path.isBelowRoot path = true)
    (hmarked : v.Marked target m u) (hreached : v.Reached path m u) (hdir : dir ∈ Path.ancestors path) :
    v.HasMarker u dir := by
  rcases hreached with ⟨o, ho⟩ | hparents
  · obtain ⟨o', ho', hmarker⟩ := hm path o hpath ho dir hdir
    exact ⟨o', hmarked.object ho', hmarker⟩
  · obtain ⟨o, ho, htype⟩ := hparents dir hdir
    exact ⟨o, ho, hu.isMarker ho htype⟩

theorem Tree.marked (hm : v.Tree m) (htarget : Path.isBelowRoot target = true)
    (hmarked : v.Marked target m u) (habove : ∀ dir ∈ Path.ancestors target, v.HasMarker u dir) :
    v.Tree u := by
  intro path o hpath ho dir hdir
  rcases hmarked v.container (v.storeName path) with hsame | ⟨-, ⟨made, hmade, hname⟩, -⟩
  · obtain ⟨o', ho', hmarker⟩ := hm path o hpath (hsame ▸ ho) dir hdir
    exact ⟨o', hmarked.object ho', hmarker⟩
  -- What is above a new directory is above the path that it has been made for.
  · have hvalid := Path.isBelowRoot_of_mem_ancestors htarget hmade
    obtain rfl := storeName_inj (Path.isValid_of_isBelowRoot hpath) (Path.isValid_of_isBelowRoot hvalid) hname
    exact habove dir (Path.mem_ancestors_trans hmade hdir)

/-- New directories are not below what is not above the path that they are made for. -/
theorem Marked.onlyBelow_iff (hmarked : v.Marked target m u) (htarget : Path.isBelowRoot target = true)
    (hdir : dir ∉ Path.ancestors target) : v.OnlyBelow u paths dir ↔ v.OnlyBelow m paths dir := by
  constructor
  · intro h path o hpath ho
    exact h path o hpath (hmarked.object ho)
  · intro h path o hpath ho hbelow
    rcases hmarked v.container (v.storeName path) with hsame | ⟨-, ⟨made, hmade, hname⟩, -⟩
    · exact h path o hpath (hsame ▸ ho) hbelow
    · have hvalid := Path.isBelowRoot_of_mem_ancestors htarget hmade
      obtain rfl := storeName_inj (Path.isValid_of_isBelowRoot hpath) (Path.isValid_of_isBelowRoot hvalid)
        hname
      exact absurd (Path.mem_ancestors_trans hmade hbelow) hdir

/-! ## Files that are changed -/

/-- Objects are changed at some paths, and those that are there then are below markers. This leaves a tree
if and only if markers are at these paths, or nothing is below them. -/
theorem Tree.change_iff (hu : v.Tree u)
    (hsame : ∀ path, Path.isBelowRoot path = true → path ∉ paths →
      t.object? v.container (v.storeName path) = u.object? v.container (v.storeName path))
    (habove : ∀ path ∈ paths, ∀ o, t.object? v.container (v.storeName path) = some o →
      ∀ dir ∈ Path.ancestors path, v.HasMarker u dir) :
    v.Tree t ↔ ∀ dir ∈ paths, v.HasMarker t dir ∨ v.OnlyBelow t [] dir := by
  constructor
  · intro ht dir _
    by_cases hmarker : v.HasMarker t dir
    · exact .inl hmarker
    · exact .inr (ht.onlyBelow hmarker)
  · intro h path o hpath ho dir hdir
    by_cases hchanged : dir ∈ paths
    · rcases h dir hchanged with hmarker | hnothing
      · exact hmarker
      · exact absurd (hnothing path o hpath ho hdir) List.not_mem_nil
    · have hmarker : v.HasMarker u dir := by
        by_cases hin : path ∈ paths
        · exact habove path hin o ho dir hdir
        · exact hu path o hpath (hsame path hpath hin ▸ ho) dir hdir
      obtain ⟨o', ho', hmarker⟩ := hmarker
      exact ⟨o', (hsame dir (Path.isBelowRoot_of_mem_ancestors hpath hdir) hchanged).trans ho', hmarker⟩

theorem onlyBelow_congr (hsame : ∀ path, Path.isBelowRoot path = true → dir ∈ Path.ancestors path →
    t.object? v.container (v.storeName path) = u.object? v.container (v.storeName path)) :
    v.OnlyBelow t paths dir ↔ v.OnlyBelow u paths dir := by
  constructor
  · intro h path o hpath ho hdir
    exact h path o hpath ((hsame path hpath hdir).trans ho) hdir
  · intro h path o hpath ho hdir
    exact h path o hpath ((hsame path hpath hdir).symm.trans ho) hdir

/-- The object of a file comes to be at a path. -/
theorem Tree.file_iff (hm : v.Tree m) (htyped : v.Typed m) (hpath : Path.isBelowRoot path = true)
    (hmarked : v.Marked path m u) (hreached : v.Reached path m u)
    (hsame : SameBut (v.Places (v.storeName path)) u t)
    (ho : t.object? v.container (v.storeName path) = some o) (htype : o.contentType = fileType) :
    v.Typed t ∧ (v.Tree t ↔ v.OnlyBelow m [] path) := by
  have hu := htyped.marked hpath hmarked
  have habove : ∀ dir ∈ Path.ancestors path, v.HasMarker u dir :=
    fun _ hdir => hm.hasMarker_of_reached hu hpath hmarked hreached hdir
  have hpaths : ∀ p ∈ [path], Path.isBelowRoot p = true := by
    intro p hp
    exact List.mem_singleton.1 hp ▸ hpath
  have hplaces : SameBut (fun c n => ∃ p ∈ [path], v.Places (v.storeName p) c n) u t :=
    hsame.mono fun c n h => ⟨path, List.mem_singleton_self path, h⟩
  have hobject : ∀ other, Path.isBelowRoot other = true → other ∉ [path] →
      t.object? v.container (v.storeName other) = u.object? v.container (v.storeName other) :=
    fun other hother hnot => object_of_not_mem hplaces hpaths (Path.isValid_of_isBelowRoot hother) hnot
  constructor
  · refine hu.change hpaths hplaces ?_
    intro p hp o' ho'
    obtain rfl := List.mem_singleton.1 hp
    rw [ho] at ho'
    exact .inr (Option.some.inj ho' ▸ htype)
  · have hiff := (hm.marked hpath hmarked habove).change_iff hobject fun p hp _ _ => by
      exact List.mem_singleton.1 hp ▸ habove
    have hnot : ¬v.HasMarker t path := by
      intro hmarker
      obtain ⟨o', ho', hmarker⟩ := hmarker
      rw [ho] at ho'
      exact hmarker.not_file (Option.some.inj ho' ▸ htype)
    rw [hiff, List.forall_mem_singleton, or_iff_right hnot,
      ← hmarked.onlyBelow_iff hpath (Path.not_mem_ancestors_self path)]
    refine onlyBelow_congr fun other hother hbelow => hobject other hother ?_
    rw [List.mem_singleton]
    rintro rfl
    exact Path.not_mem_ancestors_self _ hbelow

theorem WrittenTo.tree (hm : v.Tree m) (htyped : v.Typed m) (hpath : Path.isBelowRoot path = true)
    (h : v.WrittenTo path m t) : v.Typed t ∧ v.Tree t := by
  obtain ⟨u, hmarked, hreached, hsame, o, ho, hkind⟩ := h
  have hfile : o.contentType = fileType ∧ ¬v.HasMarker m path := by
    rcases hkind with ⟨hthere, hmanifest⟩ | ⟨htype, -, hplain⟩
    · have hnot : ¬o.IsMarker := by
        intro hmarker
        rw [hmarker.manifest] at hmanifest
        cases hmanifest
      refine ⟨(htyped.kind _ o hthere).resolve_left hnot, ?_⟩
      intro hmarker
      obtain ⟨o', ho', hmarker⟩ := hmarker
      rw [hthere] at ho'
      exact hnot (Option.some.inj ho' ▸ hmarker)
    · refine ⟨htype, ?_⟩
      intro hmarker
      obtain ⟨o', ho', hmarker⟩ := hmarker
      exact hplain o' ho' hmarker.contentType
  obtain ⟨ht, hiff⟩ := hm.file_iff htyped hpath hmarked hreached hsame ho hfile.1
  exact ⟨ht, hiff.2 (hm.onlyBelow hfile.2)⟩

theorem StoredAt.tree_iff (hm : v.Tree m) (htyped : v.Typed m) (hpath : Path.isBelowRoot path = true)
    (h : v.StoredAt path m t) : v.Typed t ∧ (v.Tree t ↔ v.OnlyBelow m [] path) := by
  obtain ⟨u, hmarked, hparents, hsame, o, ho, htype, -⟩ := h
  exact hm.file_iff htyped hpath hmarked (.inr hparents) hsame ho htype

/-- Where a path's object is moved away, what was below it is left without a directory. -/
theorem onlyBelow_source_iff (htarget : Path.isBelowRoot target = true) (hmarked : v.Marked target m u)
    (hobject : ∀ path, Path.isBelowRoot path = true → path ∉ [source, target] →
      t.object? v.container (v.storeName path) = u.object? v.container (v.storeName path))
    (ho : t.object? v.container (v.storeName target) = some o) :
    v.OnlyBelow t [] source ↔ source ∉ Path.ancestors target ∧ v.OnlyBelow m [] source := by
  have hsame : source ∉ Path.ancestors target → ∀ path, Path.isBelowRoot path = true →
      source ∈ Path.ancestors path →
      t.object? v.container (v.storeName path) = u.object? v.container (v.storeName path) := by
    intro hnot path hpath hbelow
    refine hobject path hpath fun hin => ?_
    rcases List.mem_cons.1 hin with rfl | hin
    · exact Path.not_mem_ancestors_self _ hbelow
    · exact hnot (List.mem_singleton.1 hin ▸ hbelow)
  constructor
  · intro h
    have hnot : source ∉ Path.ancestors target :=
      fun hbelow => absurd (h target o htarget ho hbelow) List.not_mem_nil
    exact ⟨hnot, (hmarked.onlyBelow_iff htarget hnot).1 ((onlyBelow_congr (hsame hnot)).1 h)⟩
  · intro h
    exact (onlyBelow_congr (hsame h.1)).2 ((hmarked.onlyBelow_iff htarget h.1).2 h.2)

/-- What is moved from below a path to that path is no longer below it. -/
theorem onlyBelow_target_iff (htarget : Path.isBelowRoot target = true) (hmarked : v.Marked target m u)
    (hobject : ∀ path, Path.isBelowRoot path = true → path ∉ [source, target] →
      t.object? v.container (v.storeName path) = u.object? v.container (v.storeName path))
    (hgone : t.object? v.container (v.storeName source) = none) :
    v.OnlyBelow t [] target ↔ v.OnlyBelow m [source] target := by
  rw [← hmarked.onlyBelow_iff htarget (Path.not_mem_ancestors_self target)]
  have hother : ∀ path, target ∈ Path.ancestors path → path ≠ source → path ∉ [source, target] := by
    intro path hbelow hpath hin
    rcases List.mem_cons.1 hin with heq | hin
    · exact hpath heq
    · exact Path.not_mem_ancestors_self target (List.mem_singleton.1 hin ▸ hbelow)
  constructor
  · intro h path found hpath hfound hbelow
    by_cases heq : path = source
    · exact heq ▸ List.mem_singleton_self path
    · have hsame := hobject path hpath (hother path hbelow heq)
      exact absurd (h path found hpath (hsame.trans hfound) hbelow) List.not_mem_nil
  · intro h path found hpath hfound hbelow
    by_cases heq : path = source
    · rw [heq, hgone] at hfound
      cases hfound
    · have hsame := hobject path hpath (hother path hbelow heq)
      exact absurd (List.mem_singleton.1 (h path found hpath (hsame.symm.trans hfound) hbelow)) heq

/-- The object of one path comes to be at another. -/
theorem MovedTo.tree_iff (hm : v.Tree m) (htyped : v.Typed m)
    (hpaths : ∀ path ∈ [source, target], Path.isBelowRoot path = true) (h : v.MovedTo source target m t) :
    v.Typed t ∧ (v.Tree t ↔ source ∉ Path.ancestors target ∧ v.OnlyBelow m [] source ∧
      (v.HasMarker m source ∨ v.OnlyBelow m [source] target)) := by
  obtain ⟨hne, u, hmarked, hparents, hsame, hgone, o, o', ho, ho', htype, hcontent, hmanifest⟩ := h
  have htarget : Path.isBelowRoot target = true := hpaths target (by simp)
  have hu := htyped.marked htarget hmarked
  have habove : ∀ dir ∈ Path.ancestors target, v.HasMarker u dir :=
    fun _ hdir => hm.hasMarker_of_reached hu htarget hmarked (.inr hparents) hdir
  have hobject : ∀ other, Path.isBelowRoot other = true → other ∉ [source, target] →
      t.object? v.container (v.storeName other) = u.object? v.container (v.storeName other) :=
    fun other hother hnot => object_of_not_mem hsame hpaths (Path.isValid_of_isBelowRoot hother) hnot
  have hmarker : o.IsMarker → o'.IsMarker := by
    intro hmarker
    refine ⟨⟨htype.trans hmarker.contentType, hmanifest⟩, ?_⟩
    rw [hcontent, MemoryStore.resolve_of_plain hmarker.manifest, hmarker.content]
  constructor
  · refine hu.change hpaths hsame ?_
    intro path hpath found hfound
    rcases List.mem_cons.1 hpath with rfl | hpath
    · rw [hgone] at hfound
      cases hfound
    · obtain rfl := List.mem_singleton.1 hpath
      rw [ho'] at hfound
      obtain rfl := Option.some.inj hfound
      exact (htyped.kind _ o ho).imp hmarker htype.trans
  have hiff := (hm.marked htarget hmarked habove).change_iff hobject fun path hpath found hfound => by
    rcases List.mem_cons.1 hpath with rfl | hpath
    · rw [hgone] at hfound
      cases hfound
    · exact List.mem_singleton.1 hpath ▸ habove
  have hsource : ¬v.HasMarker t source := by
    intro hmarker
    obtain ⟨found, hfound, -⟩ := hmarker
    rw [hgone] at hfound
    cases hfound
  have hmoved : v.HasMarker t target ↔ v.HasMarker m source := by
    constructor
    · intro h
      obtain ⟨found, hfound, hfoundmarker⟩ := h
      rw [ho'] at hfound
      obtain rfl := Option.some.inj hfound
      exact ⟨o, ho, htyped.isMarker ho (htype.symm.trans hfoundmarker.contentType)⟩
    · intro h
      obtain ⟨found, hfound, hfoundmarker⟩ := h
      rw [ho] at hfound
      obtain rfl := Option.some.inj hfound
      exact ⟨o', ho', hmarker hfoundmarker⟩
  rw [hiff, List.forall_mem_cons, List.forall_mem_singleton, or_iff_right hsource, hmoved,
    onlyBelow_source_iff htarget hmarked hobject ho', onlyBelow_target_iff htarget hmarked hobject hgone,
    and_assoc]

/-! ## Trees that are removed -/

theorem atOrBelow_of_mem_ancestors {base : String} (hpath : Path.isBelowRoot path = true)
    (hdir : dir ∈ Path.ancestors path) (h : AtOrBelow base (v.storeName dir)) :
    AtOrBelow base (v.storeName path) := by
  have hvalid := Path.isValid_of_isBelowRoot (Path.isBelowRoot_of_mem_ancestors hpath hdir)
  have hbelow := (startsWith_storeName_iff (v := v) (Path.isValid_of_isBelowRoot hpath) hvalid).2 hdir
  refine h.imp_right fun h => .inr ?_
  rcases h with rfl | h
  · exact hbelow
  · rw [Text.startsWith_iff] at h hbelow ⊢
    rw [Segment.toList_start] at hbelow
    exact h.trans ((List.prefix_append _ _).trans hbelow)

/-- Where a directory is removed, so is all below it. -/
theorem Tree.without_tree {base : String} (hm : v.Tree m) (h : Without (v.InTree base) m t) :
    v.Tree t := by
  intro path o hpath ho dir hdir
  obtain ⟨hthere, hkept⟩ := (h.object _ _ _).1 ho
  obtain ⟨o', ho', hmarker⟩ := hm path o hpath hthere dir hdir
  refine ⟨o', (h.object _ _ _).2 ⟨ho', fun hgone => hkept ?_⟩, hmarker⟩
  exact inTree_object_iff.2 (atOrBelow_of_mem_ancestors hpath hdir (inTree_object_iff.1 hgone))

/-! ## Operations that succeed -/

namespace Operation

/-- The operation succeeds and leaves the store `t`. -/
def Succeeds (v : Volume) : Operation → MemoryStore → MemoryStore → Prop
  | .write path offset source, m, t =>
    ∃ count, (v.write path offset source).runOn answer m = (.ok count, t)
  | .writeAll path content, m, t => (v.writeAll path content).runOn answer m = (.ok (), t)
  | .move source target, m, t => (v.move source target).runOn answer m = (.ok (), t)
  | .remove path, m, t => (v.remove path).runOn answer m = (.ok (), t)

/-- What an operation would leave without its directory is not there: nothing is below the path at which a
file is stored; nothing is below the path from which something is moved, and where that is a file, nothing
else is below the path that it is moved to. -/
def SparesDirectories (v : Volume) : Operation → MemoryStore → Prop
  | .writeAll path _, m => v.OnlyBelow m [] path
  | .move source target, m => source = target ∨ source ∉ Path.ancestors target ∧
      v.OnlyBelow m [] source ∧ (v.HasMarker m source ∨ v.OnlyBelow m [source] target)
  | _, _ => True

theorem Succeeds.leads {operation : Operation} (h : operation.Succeeds v m t) :
    operation.Leads v never m t := by
  cases operation with
  | write path offset source =>
    obtain ⟨count, h⟩ := h
    exact ⟨_, outcome_never_iff.2 h⟩
  | writeAll path content => exact ⟨_, outcome_never_iff.2 h⟩
  | move source target => exact ⟨_, outcome_never_iff.2 h⟩
  | remove path => exact ⟨_, outcome_never_iff.2 h⟩

/-- An operation on a tree that succeeds leaves a tree if and only if it spares the directories. -/
theorem Succeeds.tree_iff {operation : Operation} (hm : v.Proper m) (howned : v.Owned m)
    (htyped : v.Typed m) (htree : v.Tree m) (h : operation.Succeeds v m t) :
    v.Typed t ∧ (v.Tree t ↔ operation.SparesDirectories v m) := by
  cases operation with
  | write path offset source =>
    obtain ⟨count, h⟩ := h
    obtain ⟨hpath, hwritten⟩ := write_changes path offset source _ _ (outcome_never_iff.2 h)
    obtain ⟨ht, htree⟩ := hwritten.tree htree htyped hpath
    exact ⟨ht, iff_of_true htree trivial⟩
  | writeAll path content =>
    obtain ⟨hpath, hstored⟩ := writeAll_changes path content hm.own _ _ (outcome_never_iff.2 h)
    exact hstored.tree_iff htree htyped hpath
  | move source target =>
    obtain ⟨hpaths, ⟨hname, rfl⟩ | hmoved⟩ :=
      move_changes source target hm.own _ _ (outcome_never_iff.2 h)
    · have hsource := Path.isValid_of_isBelowRoot (hpaths source (by simp))
      have htarget := Path.isValid_of_isBelowRoot (hpaths target (by simp))
      exact ⟨htyped, iff_of_true htree (.inl (storeName_inj hsource htarget hname))⟩
    · obtain ⟨ht, hiff⟩ := hmoved.tree_iff htree htyped hpaths
      refine ⟨ht, hiff.trans (or_iff_right ?_).symm⟩
      rintro rfl
      exact hmoved.1 rfl
  | remove path =>
    obtain ⟨-, ht⟩ := remove_takes path hm howned _ _ (outcome_never_iff.2 h)
    exact ⟨htyped.without ht, iff_of_true (htree.without_tree ht) trivial⟩

end Operation

/-- Operations one after another that all succeed, and time that passes in between. -/
inductive Completes (v : Volume) (allowed : Operation → MemoryStore → Prop) :
    MemoryStore → MemoryStore → Prop where
  | start (m : MemoryStore) : v.Completes allowed m m
  | wait {m t : MemoryStore} (now : Timestamp) :
    v.Completes allowed m t → v.Completes allowed m { t with now := now }
  | step {m t u : MemoryStore} {operation : Operation} :
    v.Completes allowed m t → allowed operation t → operation.Succeeds v t u → v.Completes allowed m u

theorem Completes.run {allowed : Operation → MemoryStore → Prop} (h : v.Completes allowed m t) :
    v.Run (fun _ => never) allowed m t := by
  induction h with
  | start => exact .start _
  | wait now _ ih => exact .wait now ih
  | step _ hallowed hstep ih => exact .step ih hallowed hstep.leads

theorem Completes.tree (h : v.Completes (Operation.SparesDirectories v) m t) (hm : v.Proper m)
    (howned : v.Owned m) (htyped : v.Typed m) (htree : v.Tree m) : v.Typed t ∧ v.Tree t := by
  induction h with
  | start => exact ⟨htyped, htree⟩
  | wait now _ ih => exact ⟨⟨ih.1.path, ih.1.kind⟩, ih.2⟩
  | step hrun hspares hstep ih =>
    have hproper := hrun.run.proper hm fun _ _ _ hcall => hcall
    obtain ⟨ht, hiff⟩ := hstep.tree_iff hproper (hrun.run.owned hm howned) ih.1 ih.2
    exact ⟨ht, hiff.2 hspares⟩

theorem typed_fresh (v : Volume) (bulk : Bool) (now : Timestamp) :
    v.Typed (fresh v.container bulk now) := by
  constructor
  · intro name o ho
    rw [object?_fresh] at ho
    cases ho
  · intro name o ho
    rw [object?_fresh] at ho
    cases ho

theorem tree_fresh (v : Volume) (bulk : Bool) (now : Timestamp) :
    v.Tree (fresh v.container bulk now) := by
  intro path o _ ho
  rw [object?_fresh] at ho
  cases ho

/-- A manifest refers to segments of its own file only. -/
theorem Tree.eq_of_startsWith {name other : String} {s : Nat} (hm : v.Tree m) (htyped : v.Typed m)
    (hname : v.HasManifest m name) (hother : v.HasManifest m other)
    (hstart : Text.startsWith (Segment.name other s) (Segment.start name) = true) : other = name := by
  obtain ⟨o, ho, href⟩ := hname
  obtain ⟨o', ho', -⟩ := hother
  obtain ⟨dir, hdir, rfl⟩ := htyped.path _ o ho
  obtain ⟨path, hpath, rfl⟩ := htyped.path _ o' ho'
  by_cases hsame : dir = path
  · rw [hsame]
  have hbelongs : Segment.belongsTo (v.manifestRef (v.storeName path)) (Segment.name (v.storeName path) s)
      = true := Segment.belongsTo_name
  have habove : dir ∈ Path.ancestors path :=
    mem_ancestors_of_belongsTo hpath (Path.isValid_of_isBelowRoot hdir) hsame (getLast?_storeName hdir)
      hbelongs hstart
  obtain ⟨found, hfound, hmarker⟩ := hm path o' hpath ho' dir habove
  rw [ho] at hfound
  rw [Option.some.inj hfound, hmarker.manifest] at href
  cases href

/-- Let operations on a new volume succeed one after another, and let those that store and move spare the
directories. Then markers are above each object, nothing is below a file, and no manifest refers to the
segments of another file. The next operation that succeeds keeps this so if and only if it spares the
directories. -/
theorem tree_of_completes {options : VolumeOptions} {bulk : Bool} {now : Timestamp}
    (hcreate : (create options).runOn answer (MemoryStore.empty bulk now) = (.ok v, start))
    (hrun : v.Completes (Operation.SparesDirectories v) start m) :
    v.Typed m ∧ v.Tree m ∧
    (∀ path o, Path.isBelowRoot path = true → m.object? v.container (v.storeName path) = some o →
      o.contentType = fileType → v.OnlyBelow m [] path) ∧
    (∀ name other s, v.HasManifest m name → v.HasManifest m other →
      Text.startsWith (Segment.name other s) (Segment.start name) = true → other = name) ∧
    ∀ (operation : Operation) t, operation.Succeeds v m t →
      (v.Tree t ↔ operation.SparesDirectories v m) := by
  obtain rfl := create_ensures (.ok v) start (outcome_never_iff.2 hcreate)
  have hfresh := (laidOut_fresh v bulk now).toProper
  have howned := owned_fresh v bulk now
  obtain ⟨htyped, htree⟩ := hrun.tree hfresh howned (typed_fresh v bulk now) (tree_fresh v bulk now)
  refine ⟨htyped, htree, ?_, fun _ _ _ hname hother => htree.eq_of_startsWith htyped hname hother, ?_⟩
  · intro path o _ ho htype
    refine htree.onlyBelow fun hmarker => ?_
    obtain ⟨o', ho', hmarker⟩ := hmarker
    rw [ho] at ho'
    exact hmarker.not_file (Option.some.inj ho' ▸ htype)
  · intro operation t hstep
    have hm := hrun.run.proper hfresh fun _ _ _ hcall => hcall
    exact (hstep.tree_iff hm (hrun.run.owned hfresh howned) htyped htree).2

/-! ## A file in the place of a directory -/

/-- A file can be stored wherever there is no file above it. -/
theorem writeAll_runOn (content : Payload) (hm : v.Proper m) (hpath : Path.isBelowRoot path = true)
    (hunder : v.UnderDirectories m path) : ∃ t, (v.writeAll path content).runOn answer m = (.ok (), t) := by
  have hends : Ensures (answer.mayFail never) (v.writeAll path content) m (fun _ _ => True)
      fun _ _ => False := by
    refine ensures_writeAll (fun hinvalid => absurd hpath (by simp [hinvalid])) fun _ => ?_
    refine (makeParents_ensures path hm.ready).bind_mono ?_ ?_
    · intro _ _ hu
      rcases hu.2 with ⟨_, hcall⟩ | hover
      · exact hcall
      · exact hover hunder
    intro _ u hu
    have hready := hu.ready hm.ready
    have hown := hu.ownKept.own hm.own
    refine ensures_replaceObject (fun _ hcall => hcall.elim fun _ h => h) ?_
    refine ensures_at_bind (MemoryStore.answer_put hready.container hready.putBudget) ?_
      fun _ hcall => hcall.elim
    cases hprevious : (u.object? v.container (v.storeName path)).bind StoredObject.manifest with
    | none => exact ensures_pure trivial
    | some ref =>
      obtain rfl := hown.found_eq ref hprevious
      refine (removeSegments_ensures (singly_mayFail never)
        (MemoryStore.mem_containers_place hready.segments)).mono (fun _ _ _ => trivial) ?_
      intro _ _ hfail
      rcases hfail.1 with ⟨-, _, hcall⟩ | ⟨_, _, hcall⟩
      · exact hcall
      · exact hcall
  obtain ⟨_, t, hrun, -⟩ := hends.exists_runOn
  exact ⟨t, hrun⟩

/-- A file is stored in a directory of a new volume. -/
theorem exists_directory : ∃ m o,
    (Operation.writeAll "/a/b" ⟨#[1]⟩).Succeeds sampleVolume (fresh "files" true Timestamp.epoch) m ∧
    sampleVolume.Completes (Operation.SparesDirectories sampleVolume)
      (fresh "files" true Timestamp.epoch) m ∧
    m.object? "files" "a/b" = some o ∧ o.contentType = fileType := by
  have hproper := (laidOut_fresh sampleVolume true Timestamp.epoch).toProper
  have hname : sampleVolume.storeName "/a/b" = "a/b" := by decide
  obtain ⟨m, hrun⟩ := writeAll_runOn ⟨#[1]⟩ hproper (by decide)
    (writable_fresh sampleVolume true Timestamp.epoch "/a/b").parents
  obtain ⟨-, _, -, -, -, o, ho, htype, -⟩ :=
    writeAll_changes "/a/b" ⟨#[1]⟩ hproper.own _ _ (outcome_never_iff.2 hrun)
  rw [hname] at ho
  have hspares : Operation.SparesDirectories sampleVolume (.writeAll "/a/b" ⟨#[1]⟩)
      (fresh "files" true Timestamp.epoch) := by
    intro path o _ ho
    rw [object?_fresh] at ho
    cases ho
  have hsucceeds : (Operation.writeAll "/a/b" ⟨#[1]⟩).Succeeds sampleVolume
      (fresh "files" true Timestamp.epoch) m := hrun
  exact ⟨m, o, hsucceeds, .step (.start _) hspares hsucceeds, ho, htype⟩

/-- In the directory is a file. -/
theorem tree_of_completes_of_writeAll : ∃ m,
    sampleVolume.Completes (Operation.SparesDirectories sampleVolume)
      (fresh "files" true Timestamp.epoch) m ∧
    sampleVolume.HasMarker m "/a" ∧ sampleVolume.OnlyBelow m [] "/a/b" ∧
    ∀ (operation : Operation) t, operation.Succeeds sampleVolume m t →
      (sampleVolume.Tree t ↔ operation.SparesDirectories sampleVolume m) := by
  obtain ⟨m, o, -, hrun, ho, htype⟩ := exists_directory
  have hname : sampleVolume.storeName "/a/b" = "a/b" := by decide
  obtain ⟨-, htree, hfile, -, hnext⟩ := tree_of_completes create_sampleVolume hrun
  refine ⟨m, hrun, ?_, ?_, hnext⟩
  · exact htree "/a/b" o (by decide) (hname ▸ ho) "/a" (by decide)
  · exact hfile "/a/b" o (by decide) (hname ▸ ho) htype

/-- A file is stored where a directory is, and what is in the directory is then below that file. -/
theorem writeAll_over_directory : ∃ m t o,
    (Operation.writeAll "/a/b" ⟨#[1]⟩).Succeeds sampleVolume (fresh "files" true Timestamp.epoch) m ∧
    (Operation.writeAll "/a" ⟨#[2]⟩).Succeeds sampleVolume m t ∧
    t.object? "files" "a" = some o ∧ o.contentType = fileType ∧
    ¬sampleVolume.OnlyBelow t [] "/a" ∧ ¬sampleVolume.Tree t := by
  obtain ⟨m, o, hfirst, hrun, ho, -⟩ := exists_directory
  have hname : sampleVolume.storeName "/a/b" = "a/b" := by decide
  have hover : sampleVolume.storeName "/a" = "a" := by decide
  have hfresh := (laidOut_fresh sampleVolume true Timestamp.epoch).toProper
  have hproper : sampleVolume.Proper m := hrun.run.proper hfresh fun _ _ _ hcall => hcall
  have hunder : sampleVolume.UnderDirectories m "/a" := .of_nil (by decide)
  obtain ⟨t, hsecond⟩ := writeAll_runOn ⟨#[2]⟩ hproper (by decide) hunder
  obtain ⟨-, u, hmarked, -, hsame, o', ho', htype, -⟩ :=
    writeAll_changes "/a" ⟨#[2]⟩ hproper.own _ _ (outcome_never_iff.2 hsecond)
  have hbelow : t.object? "files" "a/b" = some o := by
    have hplace : ¬sampleVolume.Places (sampleVolume.storeName "/a") "files" "a/b" := by
      intro hplace
      rcases hplace with hobject | hrefers
      · exact absurd hobject.2 (by decide)
      · exact object_not_refers rfl _ hrefers
    exact (hsame _ _ hplace).trans (hmarked.object ho)
  refine ⟨m, t, o', hfirst, hsecond, hover ▸ ho', htype, ?_, ?_⟩
  · intro honly
    exact absurd (honly "/a/b" o (by decide) (hname ▸ hbelow) (by decide)) List.not_mem_nil
  · intro htree
    obtain ⟨found, hfound, hmarker⟩ := htree "/a/b" o (by decide) (hname ▸ hbelow) "/a" (by decide)
    rw [ho'] at hfound
    exact hmarker.not_file (Option.some.inj hfound ▸ htype)

end Volume

end SegmentedFiles
