import SegmentedFiles.Proofs.Volume.Ancestors
import SegmentedFiles.Proofs.Volume.Keeps
import SegmentedFiles.Proofs.Volume.Pruned

/-! # What operations on files change

A write, and the storing or moving of a whole file, first see to the directories above the path that they
write. Only where these are all there, or the file has been there before, do they change the object of a
file and its segments (`Volume.Changed`). This is so wherever the operation stops, on any store; of one
that succeeds it is also said what has become of the files that it is about. -/

namespace SegmentedFiles

/-- The empty object that is made for a directory. -/
structure StoredObject.IsMarker (object : StoredObject) : Prop extends object.IsDirectory where
  content : object.content = ByteArray.empty

namespace Volume

open MemoryStore (answer SameBut At)
open VolumeAction

variable {v : Volume} {m t u : MemoryStore} {name path : String} {o : StoredObject}
  {fails : StoreCall → Prop}

/-! ## The directories above a path -/

/-- From `m` to `t` nothing is changed, but above `path` markers are made where there was nothing. -/
def Marked (v : Volume) (path : String) (m t : MemoryStore) : Prop :=
  ∀ c n, t.object? c n = m.object? c n ∨
    c = v.container ∧ (∃ dir ∈ Path.ancestors path, n = v.storeName dir) ∧ m.object? c n = none ∧
      ∃ o, t.object? c n = some o ∧ o.IsMarker

/-- There are directories at these paths. -/
def HasDirectories (v : Volume) (m : MemoryStore) (dirs : List String) : Prop :=
  ∀ dir ∈ dirs, ∃ o, m.object? v.container (v.storeName dir) = some o ∧ o.contentType = directoryType

/-- All directories above a path are there. -/
def HasParents (v : Volume) (m : MemoryStore) (path : String) : Prop :=
  v.HasDirectories m (Path.ancestors path)

theorem HasDirectories.concat {dirs : List String} {dir : String} (h : v.HasDirectories m dirs)
    (ho : m.object? v.container (v.storeName dir) = some o) (htype : o.contentType = directoryType) :
    v.HasDirectories m (dirs ++ [dir]) := by
  intro dir' hmem
  rcases List.mem_append.1 hmem with hmem | hmem
  · exact h dir' hmem
  · obtain rfl := List.mem_singleton.1 hmem
    exact ⟨o, ho, htype⟩

/-- What a directory is put over does not matter. -/
theorem HasDirectories.put {dirs : List String} {name : String} (h : v.HasDirectories m dirs)
    (ho : t.object? v.container name = some o) (htype : o.contentType = directoryType)
    (hsame : SameBut (At v.container name) m t) : v.HasDirectories t dirs := by
  intro dir hdir
  obtain ⟨o', ho', htype'⟩ := h dir hdir
  by_cases hplace : v.storeName dir = name
  · exact ⟨o, hplace ▸ ho, htype⟩
  · exact ⟨o', (hsame _ _ fun h => hplace h.2).trans ho', htype'⟩

theorem isMarker_written (m : MemoryStore) :
    (m.written ByteArray.empty (PutOptions.plain directoryType)).IsMarker :=
  ⟨⟨rfl, rfl⟩, rfl⟩

namespace Marked

theorem refl (v : Volume) (path : String) (m : MemoryStore) : v.Marked path m m :=
  fun _ _ => .inl rfl

/-- What was there is as it was. -/
theorem object {c n : String} (h : v.Marked path m t) (ho : m.object? c n = some o) :
    t.object? c n = some o := by
  rcases h c n with hsame | ⟨-, -, hnone, -⟩
  · exact hsame.trans ho
  · rw [ho] at hnone
    cases hnone

theorem segment (h : v.Marked path m t) (text : String) :
    t.object? v.segmentsContainer text = m.object? v.segmentsContainer text :=
  (h _ text).resolve_right fun hmarker => v.segmentsContainer_ne hmarker.1

/-- The path itself is not above it. -/
theorem file (h : v.Marked path m t) (hpath : Path.isBelowRoot path = true) :
    t.object? v.container (v.storeName path) = m.object? v.container (v.storeName path) := by
  refine (h _ _).resolve_right ?_
  intro hmarker
  obtain ⟨-, ⟨dir, hdir, hname⟩, -⟩ := hmarker
  exact storeName_ne_of_mem_ancestors hpath hdir hname.symm

theorem congr (h : v.Marked path m t) (hsame : SameBut (fun _ _ => False) t u) :
    v.Marked path m u := by
  intro c n
  rw [hsame c n id]
  exact h c n

theorem place {dir : String} (h : v.Marked path m t) (hdir : dir ∈ Path.ancestors path)
    (habsent : t.object? v.container (v.storeName dir) = none)
    (ho : u.object? v.container (v.storeName dir) = some o) (hmarker : o.IsMarker)
    (hsame : SameBut (At v.container (v.storeName dir)) t u) : v.Marked path m u := by
  intro c n
  by_cases hplace : At v.container (v.storeName dir) c n
  · obtain ⟨rfl, rfl⟩ := hplace
    refine .inr ⟨rfl, ⟨dir, hdir, rfl⟩, ?_, o, ho, hmarker⟩
    rcases h v.container (v.storeName dir) with hkept | ⟨-, -, hnone, -⟩
    · exact hkept ▸ habsent
    · exact hnone
  · rw [hsame c n hplace]
    exact h c n

theorem own (h : v.Marked path m t) (hm : v.OwnManifests m) : v.OwnManifests t := by
  intro name o ref ho href
  rcases h v.container name with hsame | ⟨-, -, -, o', ho', hmarker⟩
  · exact hm name o ref (hsame ▸ ho) href
  · rw [ho] at ho'
    cases ho'
    rw [hmarker.manifest] at href
    cases href

end Marked

/-- The directories that are missing are made, or some of them where this fails. -/
theorem makeParents_marks (path : String) :
    Ensures (answer.mayFail fails) (v.makeParents path) m
      (fun _ t => v.Marked path m t ∧ v.HasParents t path) fun _ t => v.Marked path m t := by
  -- Where the loop has come past there are directories.
  refine ensures_makeParents (fun rest t => v.Marked path m t ∧
    ∃ done, Path.ancestors path = done ++ rest ∧ v.HasDirectories t done)
    ⟨.refl v path m, [], rfl, fun _ h => absurd h List.not_mem_nil⟩ (fun _ _ _ _ _ ht _ => ht.1)
    (fun _ _ _ _ ht _ _ => ht.1) ?_ ?_ ?_
  · intro dir rest t o ht ho htype
    obtain ⟨hmarked, done, hsplit, hdone⟩ := ht
    exact ⟨hmarked, done ++ [dir], hsplit.trans (List.append_cons ..), hdone.concat ho htype⟩
  · intro dir rest t ht ho
    obtain ⟨hmarked, done, hsplit, hdone⟩ := ht
    have hdir : dir ∈ Path.ancestors path := by rw [hsplit]; simp
    refine MemoryStore.ensures_put_at.mono ?_ fun _ u hu => hmarked.congr hu
    intro _ u hu
    obtain ⟨hobject, hsame⟩ := hu
    have hmarker := isMarker_written t
    have hkept := hdone.put hobject hmarker.contentType hsame
    exact ⟨hmarked.place hdir ho hobject hmarker hsame, done ++ [dir], hsplit.trans (List.append_cons ..),
      hkept.concat hobject hmarker.contentType⟩
  · intro t ht
    obtain ⟨hmarked, done, hsplit, hdone⟩ := ht
    rw [List.append_nil] at hsplit
    exact ⟨hmarked, by rwa [HasParents, hsplit]⟩

/-! ## The places of a file -/

/-- The object of the file called `name`, and all that its manifest refers to. -/
def Places (v : Volume) (name container text : String) : Prop :=
  At v.container name container text ∨ Refers (v.manifestRef name) container text

/-- The object of a file is there in `m`, or in `u` it can be made in its directory. -/
def Reached (v : Volume) (path : String) (m u : MemoryStore) : Prop :=
  (∃ o, m.object? v.container (v.storeName path) = some o) ∨ v.HasParents u path

/-- How far an operation on the files at `paths` has come from `m` on, of which it writes the one at
`target`: nothing is changed, or directories have been made, or the files have been changed then. -/
inductive Changed (v : Volume) (paths : List String) (target : String) (m : MemoryStore) :
    MemoryStore → Prop where
  | unchanged : v.Changed paths target m m
  | marked {t : MemoryStore} : (∀ path ∈ paths, Path.isBelowRoot path = true) → v.Marked target m t →
    v.Changed paths target m t
  | files {u t : MemoryStore} : (∀ path ∈ paths, Path.isBelowRoot path = true) → v.Marked target m u →
    (∀ path ∈ paths, v.Reached path m u) →
    SameBut (fun c n => ∃ path ∈ paths, v.Places (v.storeName path) c n) u t →
    v.Changed paths target m t

/-- The only file is changed. -/
theorem Changed.file (hpath : Path.isBelowRoot path = true) (hmarked : v.Marked path m u)
    (hreached : v.Reached path m u) (hsame : SameBut (v.Places (v.storeName path)) u t) :
    v.Changed [path] path m t := by
  refine .files (fun p hp => ?_) hmarked (fun p hp => ?_) (hsame.mono fun c n h => ?_)
  · exact List.mem_singleton.1 hp ▸ hpath
  · exact List.mem_singleton.1 hp ▸ hreached
  · exact ⟨path, List.mem_singleton_self path, h⟩

theorem Changed.parents (hpath : Path.isBelowRoot path = true) (hmarked : v.Marked path m t) :
    v.Changed [path] path m t :=
  .marked (fun _ hp => List.mem_singleton.1 hp ▸ hpath) hmarked

theorem segmentFrame_sameBut (v : Volume) (name : String) :
    v.SegmentFrame name (SameBut (Refers (v.manifestRef name))) := by
  refine ⟨.refl _, fun _ _ _ h h' => h.trans h', fun m s _ _ => ?_, fun m s => ?_⟩
  · refine (MemoryStore.sameBut_answer _ m).mono fun c n hplace => ?_
    obtain ⟨rfl, rfl⟩ := hplace
    exact ⟨rfl, Segment.belongsTo_name⟩
  · refine (MemoryStore.sameBut_answer _ m).mono fun c n hplace => ?_
    obtain ⟨rfl, rfl⟩ := hplace
    exact ⟨rfl, Segment.belongsTo_name⟩

/-- The segments of a manifest are all that is deleted. -/
theorem removeSegments_sameBut (ref : ManifestRef) :
    Preserves (answer.mayFail fails) (SameBut (Refers ref)) (removeSegments path ref) := by
  have hrefl : ∀ m, SameBut (Refers ref) m m := .refl _
  have htrans : ∀ m t u, SameBut (Refers ref) m t → SameBut (Refers ref) t u → SameBut (Refers ref) m u :=
    fun _ _ _ h h' => h.trans h'
  refine Preserves.bind hrefl htrans (MemoryStore.preserves_try_of_touches fun _ _ => False.elim) ?_
  intro reply
  split
  · exact preserves_pure hrefl _
  · exact preserves_throw hrefl _
  refine Preserves.bind hrefl htrans (preserves_forIn hrefl htrans ?_) fun _ => preserves_pure hrefl _
  intro info hinfo
  refine Preserves.bind hrefl htrans (MemoryStore.preserves_try_of_touches ?_) ?_
  · intro c n hplace
    obtain ⟨rfl, rfl⟩ := hplace
    exact ⟨rfl, (List.mem_filter.1 hinfo).2⟩
  intro deleted
  split
  · exact preserves_pure hrefl _
  · exact preserves_pure hrefl _
  · exact preserves_throw hrefl _

theorem object_not_refers {ref : ManifestRef} (href : ref = v.manifestRef name) (text : String) :
    ¬Refers ref v.container text := by
  intro h
  rw [href] at h
  exact v.segmentsContainer_ne h.1.symm

/-- Of the objects of paths only those of `paths` are changed. -/
theorem object_of_places {paths : List String}
    (h : SameBut (fun c n => ∃ path ∈ paths, v.Places (v.storeName path) c n) u t)
    (hnot : ∀ path ∈ paths, name ≠ v.storeName path) :
    t.object? v.container name = u.object? v.container name := by
  refine h _ _ fun hplace => ?_
  obtain ⟨path, hpath, hobject | hrefers⟩ := hplace
  · exact hnot path hpath hobject.2
  · exact object_not_refers rfl _ hrefers

theorem object_of_not_mem {paths : List String} {other : String}
    (h : SameBut (fun c n => ∃ path ∈ paths, v.Places (v.storeName path) c n) u t)
    (hpaths : ∀ path ∈ paths, Path.isBelowRoot path = true) (hother : Path.isValid other = true)
    (hnot : other ∉ paths) :
    t.object? v.container (v.storeName other) = u.object? v.container (v.storeName other) := by
  refine object_of_places h ?_
  intro path hpath hname
  obtain rfl := storeName_inj hother (Path.isValid_of_isBelowRoot (hpaths path hpath)) hname
  exact hnot hpath

theorem removeFound_sameBut (v : Volume) (path name : String) {found : Option ManifestRef}
    (hfound : ∀ ref, found = some ref → ref = v.manifestRef name) :
    Preserves (answer.mayFail fails) (SameBut (Refers (v.manifestRef name))) (removeFound path found) := by
  cases found with
  | none => exact preserves_pure (.refl _) _
  | some ref => exact hfound ref rfl ▸ removeSegments_sameBut ref

theorem removeBoth_sameBut (v : Volume) (source target gone gone' : String)
    {moved replaced : Option ManifestRef} (hmoved : ∀ ref, moved = some ref → ref = v.manifestRef gone)
    (hreplaced : ∀ ref, replaced = some ref → ref = v.manifestRef gone') :
    Preserves (answer.mayFail fails)
      (SameBut fun c n => Refers (v.manifestRef gone) c n ∨ Refers (v.manifestRef gone') c n)
      (removeBoth source target moved replaced) := by
  refine Preserves.bind (.refl _) (fun _ _ _ h h' => h.trans h') (fun m => ?_) fun _ m => ?_
  · exact (v.removeFound_sameBut source gone hmoved m).mono
      fun _ t (ht : SameBut _ m t) => ht.mono fun _ _ => .inl
  · exact (v.removeFound_sameBut target gone' hreplaced m).mono
      fun _ t (ht : SameBut _ m t) => ht.mono fun _ _ => .inr

/-! ## Writes -/

/-- The file at `path` has been written to: it is a manifest that was there before, or a new one, which
has not been put in the place of a directory. -/
def WrittenTo (v : Volume) (path : String) (m t : MemoryStore) : Prop :=
  ∃ u, v.Marked path m u ∧ v.Reached path m u ∧ SameBut (v.Places (v.storeName path)) u t ∧
    ∃ o, t.object? v.container (v.storeName path) = some o ∧
      (m.object? v.container (v.storeName path) = some o ∧ o.manifest.isSome = true ∨
        o.contentType = fileType ∧ o.manifest = some (v.manifestRef (v.storeName path)) ∧
          ∀ o', m.object? v.container (v.storeName path) = some o' → o'.contentType ≠ directoryType)

theorem WrittenTo.changed (hpath : Path.isBelowRoot path = true) (h : v.WrittenTo path m t) :
    v.Changed [path] path m t := by
  obtain ⟨u, hmarked, hreached, hsame, -⟩ := h
  exact .file hpath hmarked hreached hsame

theorem WrittenTo.segments (h : v.WrittenTo path m t)
    (h' : SameBut (Refers (v.manifestRef (v.storeName path))) t u) : v.WrittenTo path m u := by
  obtain ⟨w, hmarked, hreached, hsame, o, ho, hkind⟩ := h
  refine ⟨w, hmarked, hreached, hsame.trans (h'.mono fun _ _ => .inr), o, ?_, hkind⟩
  exact (h' _ _ (object_not_refers rfl _)).trans ho

/-- Where the way is clear, the segments are changed and then a manifest is put. -/
theorem putManifest_changes (hpath : Path.isBelowRoot path = true) (hmarked : v.Marked path m u)
    (hreached : v.Reached path m u)
    (hsame : SameBut (Refers (v.manifestRef (v.storeName path))) u t)
    (hplain : ∀ o, m.object? v.container (v.storeName path) = some o → o.contentType ≠ directoryType) :
    Ensures (answer.mayFail fails) (v.putManifest path (v.storeName path)) t
      (fun _ w => v.WrittenTo path m w) fun _ w => v.Changed [path] path m w := by
  refine MemoryStore.ensures_put_at.mono ?_ ?_
  · intro _ w hw
    obtain ⟨hobject, hput⟩ := hw
    exact ⟨u, hmarked, hreached, (hsame.mono fun _ _ => .inr).trans (hput.mono fun _ _ => .inl), _, hobject,
      .inr ⟨rfl, rfl, hplain⟩⟩
  · intro _ w hw
    exact .file hpath hmarked hreached ((hsame.trans (hw.mono fun _ _ => False.elim)).mono fun _ _ => .inr)

theorem prepare_changes (hpath : Path.isBelowRoot path = true) :
    Ensures (answer.mayFail fails) (v.prepare path) m (fun _ t => v.WrittenTo path m t)
      fun _ t => v.Changed [path] path m t := by
  have hframe := v.segmentFrame_sameBut (v.storeName path)
  have hsegments : ∀ {u t}, v.Marked path m u → v.Reached path m u →
      SameBut (Refers (v.manifestRef (v.storeName path))) u t → v.Changed [path] path m t :=
    fun hmarked hreached hsame => .file hpath hmarked hreached (hsame.mono fun _ _ => .inr)
  cases ho : m.object? v.container (v.storeName path) with
  | none =>
    refine ensures_prepare_of_none (fun _ _ => .unchanged) ho ?_
    refine (makeParents_marks path).bind_mono (fun _ _ hu => .parents hpath hu) ?_
    intro _ u hu
    obtain ⟨hmarked, hparents⟩ := hu
    refine ((hframe.clearSegments).ensures u).bind_mono (fun _ _ ht => hsegments hmarked (.inr hparents) ht) ?_
    intro _ t ht
    refine putManifest_changes hpath hmarked (.inr hparents) ht ?_
    intro o ho'
    rw [ho] at ho'
    cases ho'
  | some o =>
    have hreached : v.Reached path m m := .inl ⟨o, ho⟩
    refine ensures_prepare_of_some (fun _ _ => .unchanged) ho ?_ (fun _ _ => .unchanged) ?_
    · intro hmanifest
      have hwritten : v.WrittenTo path m m :=
        ⟨m, .refl v path m, hreached, .refl _ m, o, ho, .inl ⟨ho, hmanifest⟩⟩
      rw [segments_eq]
      simp only [bind_assoc, pure_bind]
      refine ((hframe.list_at _ _).ensures m).bind_mono (fun _ t ht => ?_) fun _ t ht => ?_
      · exact hsegments (.refl v path m) hreached ht
      · exact ensures_pure (hwritten.segments ht)
    · intro _ htype
      have hrest : ∀ content t, SameBut (Refers (v.manifestRef (v.storeName path))) m t →
          Ensures (answer.mayFail fails) (v.keepInSegments path (v.storeName path) content) t
            (fun _ t => v.WrittenTo path m t) fun _ t => v.Changed [path] path m t := by
        intro content t ht
        have hchanged : ∀ {u}, SameBut (Refers (v.manifestRef (v.storeName path))) t u →
            v.Changed [path] path m u := fun hu => hsegments (.refl v path m) hreached (ht.trans hu)
        refine ((hframe.clearSegments).ensures t).bind_mono (fun _ _ hu => hchanged hu) ?_
        intro _ u hu
        refine ((hframe.putSegments 1 _).ensures u).bind_mono (fun _ _ hw => hchanged (hu.trans hw)) ?_
        intro _ w hw
        refine (putManifest_changes hpath (.refl v path m) hreached (ht.trans (hu.trans hw)) ?_).bind
          fun _ _ hx => ensures_pure hx
        intro o' ho'
        rw [ho] at ho'
        cases ho'
        exact htype
      rw [convert_eq]
      split
      · exact hrest _ m (.refl _ m)
      · refine ((hframe.get_at _ _ _).ensures m).bind_mono (fun _ _ ht => ?_) fun content t ht => ?_
        · exact hsegments (.refl v path m) hreached ht
        · exact hrest content t ht

/-- However a write ends, it has changed its file only. -/
theorem write_changes (path : String) (offset : Nat) (source : Source) :
    Interaction.Ensures (answer.mayFail fails) (v.write path offset source) m fun r t =>
      match r with
      | .ok _ => Path.isBelowRoot path = true ∧ v.WrittenTo path m t
      | .error _ => v.Changed [path] path m t := by
  have hframe := v.segmentFrame_sameBut (v.storeName path)
  have hbegin : Ensures (answer.mayFail fails) (v.beginWrite path offset) m
      (fun _ t => Path.isBelowRoot path = true ∧ v.WrittenTo path m t)
      fun _ t => v.Changed [path] path m t := by
    refine ensures_beginWrite (fun _ => .unchanged) prepare_changes fun hpath lengths t ht => ?_
    refine ((hframe.pad _).ensures t).mono (fun _ u hu => ?_) fun _ u hu => ?_
    · exact ⟨hpath, ht.segments hu⟩
    · exact (ht.segments hu).changed hpath
  refine ensures_write hbegin fun plan lengths t ht => ?_
  refine Interaction.Ensures.mono (hframe.writeFrom _ _ _ _ _ _ t) ?_
  intro r u hu
  cases r with
  | ok _ => exact ⟨ht.1, ht.2.segments hu⟩
  | error _ => exact (ht.2.segments hu).changed ht.1

/-! ## Whole files -/

/-- The file at `path` has been stored in one piece. -/
def StoredAt (v : Volume) (path : String) (m t : MemoryStore) : Prop :=
  ∃ u, v.Marked path m u ∧ v.HasParents u path ∧ SameBut (v.Places (v.storeName path)) u t ∧
    ∃ o, t.object? v.container (v.storeName path) = some o ∧ o.contentType = fileType ∧
      o.manifest = none

theorem StoredAt.changed (hpath : Path.isBelowRoot path = true) (h : v.StoredAt path m t) :
    v.Changed [path] path m t := by
  obtain ⟨u, hmarked, hparents, hsame, -⟩ := h
  exact .file hpath hmarked (.inr hparents) hsame

theorem writeAll_changes (path : String) (content : Payload) (hown : v.OwnManifests m) :
    Ensures (answer.mayFail fails) (v.writeAll path content) m
      (fun _ t => Path.isBelowRoot path = true ∧ v.StoredAt path m t)
      fun _ t => v.Changed [path] path m t := by
  refine ensures_writeAll (fun _ => .unchanged) fun hpath => ?_
  refine (makeParents_marks path).bind_mono (fun _ _ ht => .parents hpath ht) ?_
  intro _ t ht
  obtain ⟨hmarked, hparents⟩ := ht
  refine ensures_replaceObject (fun _ _ => .parents hpath hmarked) ?_
  refine MemoryStore.ensures_put_at.bind_mono (fun _ w hw => .parents hpath (hmarked.congr hw)) ?_
  intro _ w hw
  obtain ⟨hobject, hput⟩ := hw
  have hsame : ∀ {x}, SameBut (Refers (v.manifestRef (v.storeName path))) w x →
      SameBut (v.Places (v.storeName path)) t x :=
    fun hx => (hput.mono fun _ _ => .inl).trans (hx.mono fun _ _ => .inr)
  refine ((v.removeFound_sameBut path (v.storeName path)
    (hmarked.own hown).found_eq).ensures w).mono ?_ ?_
  · intro _ x hx
    refine ⟨hpath, t, hmarked, hparents, hsame hx,
      t.written content (PutOptions.plain fileType), ?_, rfl, rfl⟩
    exact (hx _ _ (object_not_refers rfl _)).trans hobject
  · intro _ x hx
    exact .file hpath hmarked (.inr hparents) (hsame hx)

/-- The file at `source` has been moved to `target`. -/
def MovedTo (v : Volume) (source target : String) (m t : MemoryStore) : Prop :=
  v.storeName source ≠ v.storeName target ∧
  ∃ u, v.Marked target m u ∧ v.HasParents u target ∧
    SameBut (fun c n => ∃ path ∈ [source, target], v.Places (v.storeName path) c n) u t ∧
    t.object? v.container (v.storeName source) = none ∧
    ∃ o o', m.object? v.container (v.storeName source) = some o ∧
      t.object? v.container (v.storeName target) = some o' ∧ o'.contentType = o.contentType ∧
        o'.content = u.resolve o ∧ o'.manifest = none

theorem MovedTo.changed {source target : String}
    (hpaths : ∀ path ∈ [source, target], Path.isBelowRoot path = true)
    (h : v.MovedTo source target m t) : v.Changed [source, target] target m t := by
  obtain ⟨-, u, hmarked, hparents, hsame, -, o, -, ho, -⟩ := h
  refine .files hpaths hmarked (fun path hpath => ?_) hsame
  rcases List.mem_cons.1 hpath with rfl | hpath
  · exact .inl ⟨o, ho⟩
  · exact .inr (List.mem_singleton.1 hpath ▸ hparents)

theorem move_changes (source target : String) (hown : v.OwnManifests m) :
    Ensures (answer.mayFail fails) (v.move source target) m
      (fun _ t => (∀ path ∈ [source, target], Path.isBelowRoot path = true) ∧
        (v.storeName source = v.storeName target ∧ t = m ∨ v.MovedTo source target m t))
      fun _ t => v.Changed [source, target] target m t := by
  have hboth : Path.isBelowRoot source = true → Path.isBelowRoot target = true →
      ∀ path ∈ [source, target], Path.isBelowRoot path = true := by
    intro hsource htarget
    simp [hsource, htarget]
  refine ensures_move (fun _ => .unchanged) (fun _ => .unchanged) (fun _ => .unchanged)
    (fun hsource htarget hsame => ⟨hboth hsource htarget, .inl ⟨hsame, rfl⟩⟩) ?_
  intro hsource htarget hne o ho
  have hpaths := hboth hsource htarget
  refine (makeParents_marks target).bind_mono (fun _ _ hu => .marked hpaths hu) ?_
  intro _ u hu
  obtain ⟨hmarked, hparents⟩ := hu
  have hreached : ∀ path ∈ [source, target], v.Reached path m u := by
    intro path hpath
    rcases List.mem_cons.1 hpath with rfl | hpath
    · exact .inl ⟨o, ho⟩
    · exact .inr (List.mem_singleton.1 hpath ▸ hparents)
  have hsourceplace : ∀ c n, v.Places (v.storeName source) c n →
      ∃ path ∈ [source, target], v.Places (v.storeName path) c n :=
    fun c n h => ⟨source, List.mem_cons_self, h⟩
  have htargetplace : ∀ c n, v.Places (v.storeName target) c n →
      ∃ path ∈ [source, target], v.Places (v.storeName path) c n :=
    fun c n h => ⟨target, List.mem_cons_of_mem _ (List.mem_singleton_self target), h⟩
  have hcopied : SameBut _ u (v.copied target o u) :=
    (SameBut.place u _ _ _).mono fun c n h => htargetplace c n (.inl h)
  have hrelocated : SameBut _ u (v.relocated source target o u) :=
    hcopied.trans ((SameBut.vacate _ _ _).mono fun c n h => hsourceplace c n (.inl h))
  have hall : ∀ {t}, SameBut (fun c n => Refers (v.manifestRef (v.storeName source)) c n ∨
      Refers (v.manifestRef (v.storeName target)) c n) (v.relocated source target o u) t →
      SameBut (fun c n => ∃ path ∈ [source, target], v.Places (v.storeName path) c n) u t := by
    intro t ht
    exact hrelocated.trans (ht.mono fun c n h =>
      h.elim (fun h => hsourceplace c n (.inr h)) fun h => htargetplace c n (.inr h))
  refine ensures_moveObject (hmarked.object ho) hne (fun _ _ => .marked hpaths hmarked)
    (fun _ _ => .files hpaths hmarked hreached hcopied) ?_
  refine ((v.removeBoth_sameBut source target _ _ (fun ref href => (hown _ o ref ho href).1)
    (hmarked.own hown).found_eq).ensures _).mono ?_ ?_
  · intro _ t ht
    have hkept : ∀ text, t.object? v.container text = (v.relocated source target o u).object? v.container text :=
      fun text => ht _ _ fun h => h.elim (object_not_refers rfl _) (object_not_refers rfl _)
    exact ⟨hpaths, .inr ⟨hne, u, hmarked, hparents, hall ht, (hkept _).trans object?_relocated_source,
      o, _, ho, (hkept _).trans (object?_relocated_target hne), rfl, rfl, rfl⟩⟩
  · intro _ t ht
    exact .files hpaths hmarked hreached (hall ht)

end Volume

end SegmentedFiles
