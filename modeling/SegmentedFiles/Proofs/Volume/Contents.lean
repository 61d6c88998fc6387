import SegmentedFiles.Proofs.Volume.Isolation

/-! # Contents that are kept

A file that is stored in one piece or moved reads, wherever the operation stops, as it did before or as it
is to read from then on. Segments are deleted only when nothing reads through them any more
(`contents_kept`). This is so on any store, whether its containers are there or not. -/

namespace SegmentedFiles.Volume

open MemoryStore (answer SameBut At Without Thinned)
open VolumeAction

variable {v : Volume} {m t u : MemoryStore} {path name source target : String} {o : StoredObject}
  {ref : ManifestRef} {found moved replaced : Option ManifestRef} {fails : StoreCall → Prop}

/-! ## What is read at a path -/

/-- What the whole of a file reads as, or why it cannot be read. -/
def reads (v : Volume) (m : MemoryStore) (path : String) : Except VolumeError Payload :=
  ((v.readAll path).runOn answer m).1

theorem reads_of_some (hpath : Path.isBelowRoot path = true)
    (ho : m.object? v.container (v.storeName path) = some o) :
    v.reads m path = .ok (m.resolve o) := by
  rw [reads, readAll_runOn hpath ho]

theorem reads_of_none (hpath : Path.isBelowRoot path = true)
    (ho : m.object? v.container (v.storeName path) = none) :
    v.reads m path = .error (.pathNotFound path) := by
  have hread : v.readAll path = (StoreCall.get v.container (v.storeName path) none).at path := by
    rw [readAll, checkPath, if_pos (by rw [hpath]; rfl), pure_bind]
  have hget : answer (.get v.container (v.storeName path) none) m = (.error .notFound, m) := by
    simp only [answer, MemoryStore.read, ho]
  rw [reads, hread]
  show (answer (.get v.container (v.storeName path) none) m).1.mapError _ = _
  rw [hget]
  rfl

/-- What is read depends on the object and on the segments. -/
theorem reads_congr (hown : v.OwnManifests m) (hpath : Path.isBelowRoot path = true)
    (hobject : t.object? v.container (v.storeName path) = m.object? v.container (v.storeName path))
    (hsegment : ∀ text, t.object? v.segmentsContainer text = m.object? v.segmentsContainer text) :
    v.reads t path = v.reads m path := by
  cases ho : m.object? v.container (v.storeName path) with
  | none => rw [reads_of_none hpath ho, reads_of_none hpath (hobject.trans ho)]
  | some o =>
    have hresolve : t.resolve o = m.resolve o := by
      refine MemoryStore.resolve_congr fun ref href text _ => ?_
      obtain ⟨rfl, -⟩ := hown _ o ref ho href
      exact hsegment text
    rw [reads_of_some hpath ho, reads_of_some hpath (hobject.trans ho), hresolve]

/-! ## Segments that are left -/

/-- There is none of the segments that a manifest refers to. -/
def NoSegments (ref : ManifestRef) (m : MemoryStore) : Prop := ∀ c n, Refers ref c n → m.object? c n = none

theorem NoSegments.thinned {places : String → String → Prop} (h : NoSegments ref m)
    (ht : Thinned places m t) : NoSegments ref t :=
  fun c n hin => ht.none (h c n hin)

/-- All segments of a manifest are deleted, or some of them where this fails. A store without their
container has none. -/
theorem removeSegments_clears :
    Ensures (answer.mayFail fails) (removeSegments path ref) m
      (fun _ t => Thinned (Refers ref) m t ∧ NoSegments ref t)
      fun _ t => Thinned (Refers ref) m t ∧ ∃ call, fails call := by
  by_cases hc : ref.container ∈ m.containers
  · refine (removeSegments_ensures (singly_mayFail fails) hc).mono ?_ ?_
    · intro _ t ht
      exact ⟨.of_without ht, fun _ _ hin => ht.none hin⟩
    · intro _ t ht
      obtain ⟨⟨-, hcall⟩ | ⟨_, _, hcall⟩, hthinned⟩ := ht
      · exact ⟨hthinned, hcall⟩
      · exact ⟨hthinned, _, hcall⟩
  · have hlist : answer (.list ref.container (.all ref.start)) m = (.error .notFound, m) := by
      simp only [answer, Std.ExtTreeMap.getElem?_eq_none hc]
    unfold removeSegments
    refine ensures_try_bind hlist ?_ ?_
    · refine ensures_pure ⟨.refl _ m, fun c n hin => ?_⟩
      rw [hin.1]
      exact MemoryStore.object?_of_not_mem hc
    · intro e he hcall
      split
      · next heq => exact absurd (Except.error.inj heq) he
      · exact ensures_throw ⟨.refl _ m, _, hcall⟩
      · next heq => cases heq

/-- The segments of a manifest that was found, if one was. -/
theorem removeFound_clears (path : String) (hfound : ∀ ref, found = some ref → ref = v.manifestRef name) :
    Ensures (answer.mayFail fails) (removeFound path found) m
      (fun _ t => Thinned (Refers (v.manifestRef name)) m t ∧
        (found.isSome = true → NoSegments (v.manifestRef name) t))
      fun _ t => Thinned (Refers (v.manifestRef name)) m t := by
  cases found with
  | none => exact ensures_pure ⟨.refl _ m, nofun⟩
  | some ref =>
    obtain rfl := hfound ref rfl
    exact removeSegments_clears.mono (fun _ _ ht => ⟨ht.1, fun _ => ht.2⟩) fun _ _ ht => ht.1

/-- The segments of two manifests, of each if it was found. -/
theorem removeBoth_clears (source target : String) {gone gone' : String}
    (hmoved : ∀ ref, moved = some ref → ref = v.manifestRef gone)
    (hreplaced : ∀ ref, replaced = some ref → ref = v.manifestRef gone') :
    Ensures (answer.mayFail fails) (removeBoth source target moved replaced) m
      (fun _ t => Thinned (fun c n => Refers (v.manifestRef gone) c n ∨ Refers (v.manifestRef gone') c n) m t ∧
        (moved.isSome = true → NoSegments (v.manifestRef gone) t) ∧
        (replaced.isSome = true → NoSegments (v.manifestRef gone') t))
      fun _ t => Thinned (fun c n => Refers (v.manifestRef gone) c n ∨ Refers (v.manifestRef gone') c n) m t := by
  refine (removeFound_clears source hmoved).bind_mono (fun _ t ht => ht.mono fun _ _ => .inl) ?_
  intro _ t ht
  obtain ⟨hfirst, hcleared⟩ := ht
  have hboth : ∀ {u}, Thinned (Refers (v.manifestRef gone')) t u →
      Thinned (fun c n => Refers (v.manifestRef gone) c n ∨ Refers (v.manifestRef gone') c n) m u :=
    fun hu => (hfirst.mono fun _ _ => .inl).trans (hu.mono fun _ _ => .inr)
  refine (removeFound_clears target hreplaced).mono (fun _ u hu => ?_) fun _ u hu => hboth hu
  exact ⟨hboth hu.1, fun hsome => (hcleared hsome).thinned hu.1, hu.2⟩

/-- A manifest that was at a path has none of its segments left. -/
def SegmentsGone (v : Volume) (path : String) (m t : MemoryStore) : Prop :=
  v.HasManifest m (v.storeName path) → NoSegments (v.manifestRef (v.storeName path)) t

theorem object_thinned (text : String) (h : Thinned (Refers (v.manifestRef name)) m t) :
    t.object? v.container text = m.object? v.container text :=
  h.same (object_not_refers rfl text)

theorem Marked.isSome_found (h : v.Marked target m t) (hm : v.HasManifest m name) :
    ((t.object? v.container name).bind StoredObject.manifest).isSome = true := by
  obtain ⟨o, ho, href⟩ := hm
  rw [h.object ho, Option.bind_some, href]
  rfl

/-! ## Storing a file in one piece -/

/-- What is at the path is what it was or, after all has been stored, the new content. The segments that
the former file had are deleted last. -/
theorem writeAll_contents (hown : v.OwnManifests m) (path : String) (content : Payload) :
    Ensures (answer.mayFail fails) (v.writeAll path content) m
      (fun _ t => v.reads t path = .ok content ∧ v.SegmentsGone path m t)
      fun _ t => v.reads t path = v.reads m path ∨ v.reads t path = .ok content := by
  refine ensures_writeAll (fun _ => .inl rfl) fun hpath => ?_
  have hsame : ∀ {t}, v.Marked path m t → v.reads t path = v.reads m path :=
    fun ht => reads_congr hown hpath (ht.file hpath) ht.segment
  refine (makeParents_marks path).bind_mono (fun _ _ ht => .inl (hsame ht)) ?_
  intro _ t ht
  obtain ⟨hmarked, -⟩ := ht
  refine ensures_replaceObject (fun _ _ => .inl (hsame hmarked)) ?_
  refine MemoryStore.ensures_put_at.bind_mono (fun _ w hw => .inl (hsame (hmarked.congr hw))) ?_
  intro _ w hw
  obtain ⟨hobject, -⟩ := hw
  have hreads : ∀ {x}, Thinned (Refers (v.manifestRef (v.storeName path))) w x →
      v.reads x path = .ok content := by
    intro x hx
    rw [reads_of_some hpath ((object_thinned _ hx).trans hobject), MemoryStore.resolve_of_plain rfl]
    rfl
  refine (removeFound_clears path (hmarked.own hown).found_eq).mono ?_ ?_
  · intro _ x hx
    exact ⟨hreads hx.1, fun hm => hx.2 (hmarked.isSome_found hm)⟩
  · intro _ x hx
    exact .inr (hreads hx)

/-! ## Moving a file -/

/-- The file at `source` in `m` is at `target` in `t`, in one piece, and no segments are left of it or of
the file that it replaced. -/
structure Moved (v : Volume) (source target : String) (m t : MemoryStore) : Prop where
  content : ∃ content, v.reads m source = .ok content ∧ v.reads t target = .ok content
  absent : t.object? v.container (v.storeName source) = none
  plain : ∃ o, t.object? v.container (v.storeName target) = some o ∧ o.manifest = none
  segments : ∀ path ∈ [source, target], v.SegmentsGone path m t

theorem move_contents (hown : v.OwnManifests m) (hne : source ≠ target) :
    Ensures (answer.mayFail fails) (v.move source target) m (fun _ t => v.Moved source target m t)
      fun _ t => v.reads t source = v.reads m source ∧ v.reads t target = v.reads m target ∨
        ∃ content, v.reads m source = .ok content ∧ v.reads t target = .ok content := by
  refine ensures_move (fun _ => .inl ⟨rfl, rfl⟩) (fun _ => .inl ⟨rfl, rfl⟩) (fun _ => .inl ⟨rfl, rfl⟩)
    (fun hsource htarget hsame => absurd (storeName_inj (Path.isValid_of_isBelowRoot hsource)
      (Path.isValid_of_isBelowRoot htarget) hsame) hne) ?_
  intro hsource htarget hnames o ho
  have hsame : ∀ {u}, v.Marked target m u →
      v.reads u source = v.reads m source ∧ v.reads u target = v.reads m target := by
    intro u hu
    exact ⟨reads_congr hown hsource ((hu.object ho).trans ho.symm) hu.segment,
      reads_congr hown htarget (hu.file htarget) hu.segment⟩
  refine (makeParents_marks target).bind_mono (fun _ _ hu => .inl (hsame hu)) ?_
  intro _ u hu
  obtain ⟨hmarked, -⟩ := hu
  have hresolve : u.resolve o = m.resolve o := by
    refine MemoryStore.resolve_congr fun ref href text _ => ?_
    obtain ⟨rfl, -⟩ := hown _ o ref ho href
    exact hmarked.segment text
  -- From the copy on the target reads as the source did, as long as its object stays.
  have hcontent : ∀ {t}, t.object? v.container (v.storeName target)
      = some (u.written (u.resolve o) (PutOptions.plain o.contentType)) →
      ∃ content, v.reads m source = .ok content ∧ v.reads t target = .ok content := by
    intro t ht
    refine ⟨m.resolve o, reads_of_some hsource ho, ?_⟩
    rw [reads_of_some htarget ht, MemoryStore.resolve_of_plain rfl]
    exact congrArg Except.ok hresolve
  refine ensures_moveObject (hmarked.object ho) hnames (fun _ _ => .inl (hsame hmarked))
    (fun _ _ => .inr (hcontent MemoryStore.object?_place_self)) ?_
  have hobject : ∀ {t} text, Thinned (fun c n => Refers (v.manifestRef (v.storeName source)) c n ∨
      Refers (v.manifestRef (v.storeName target)) c n) (v.relocated source target o u) t →
      t.object? v.container text = (v.relocated source target o u).object? v.container text :=
    fun text ht => ht.same fun h => h.elim (object_not_refers rfl text) (object_not_refers rfl text)
  refine (removeBoth_clears source target (fun ref href => (hown _ o ref ho href).1)
    (hmarked.own hown).found_eq).mono ?_ ?_
  · intro _ t ht
    obtain ⟨hthinned, hfirst, hsecond⟩ := ht
    have htarget := (hobject _ hthinned).trans (object?_relocated_target hnames)
    refine ⟨hcontent htarget, (hobject _ hthinned).trans object?_relocated_source, ⟨_, htarget, rfl⟩,
      fun path hpath hm => ?_⟩
    rcases List.mem_cons.1 hpath with rfl | hpath
    · refine hfirst ?_
      obtain ⟨o', ho', href⟩ := hm
      rw [ho] at ho'
      rw [Option.some.inj ho', href]
      rfl
    · obtain rfl := List.mem_singleton.1 hpath
      exact hsecond (hmarked.isSome_found hm)
  · intro _ t ht
    exact .inr (hcontent ((hobject _ ht).trans (object?_relocated_target hnames)))

/-- The move of a file, and the storing of a file in one piece, lose and mix no contents, whatever the store
holds and whichever calls fail. A move that succeeds leaves the content at the target, in one piece, with
nothing at the source, and no segments of the two files. One that fails leaves both as they read before, or
the target reads as the source did. What is stored in one piece is read, and the segments of the file that
it replaces are gone; where this fails the former content is read or the new one. -/
theorem contents_kept (hown : v.OwnManifests m) :
    (∀ source target, source ≠ target →
      Ensures (answer.mayFail fails) (v.move source target) m (fun _ t => v.Moved source target m t)
        fun _ t => v.reads t source = v.reads m source ∧ v.reads t target = v.reads m target ∨
          ∃ content, v.reads m source = .ok content ∧ v.reads t target = .ok content) ∧
    ∀ path content,
      Ensures (answer.mayFail fails) (v.writeAll path content) m
        (fun _ t => v.reads t path = .ok content ∧ v.SegmentsGone path m t)
        fun _ t => v.reads t path = v.reads m path ∨ v.reads t path = .ok content :=
  ⟨fun _ _ hne => move_contents hown hne, writeAll_contents hown⟩

/-- A file in one segment is moved. -/
theorem contents_kept_of_move :
    ∃ t, (sampleVolume.move "/ab" "/c").runOn answer (oneFileStore "ab" ⟨#[2, 3]⟩) = (.ok (), t) ∧
      sampleVolume.reads t "/c" = .ok ⟨#[2, 3]⟩ ∧ t.object? "files" "ab" = none ∧
      NoSegments (sampleVolume.manifestRef "ab") t := by
  have hlast : "ab".toList.getLast? ≠ some '/' := by decide
  have hown := (separate_oneFileStore hlast ⟨#[2, 3]⟩).own
  have hname : sampleVolume.storeName "/ab" = "ab" := by decide
  obtain ⟨t, hrun⟩ : ∃ t, (sampleVolume.move "/ab" "/c").runOn answer (oneFileStore "ab" ⟨#[2, 3]⟩)
      = (.ok (), t) := ⟨_, rfl⟩
  have hmoved : sampleVolume.Moved "/ab" "/c" (oneFileStore "ab" ⟨#[2, 3]⟩) t :=
    (contents_kept hown).1 "/ab" "/c" (by decide) _ t (outcome_never_iff.2 hrun)
  obtain ⟨content, hbefore, hafter⟩ := hmoved.content
  have hcontent : sampleVolume.reads (oneFileStore "ab" ⟨#[2, 3]⟩) "/ab" = .ok ⟨#[2, 3]⟩ := by rfl
  have hmanifest : sampleVolume.HasManifest (oneFileStore "ab" ⟨#[2, 3]⟩) "ab" :=
    ⟨_, MemoryStore.object?_place_self, rfl⟩
  have hsegments := hmoved.segments "/ab" List.mem_cons_self
  rw [SegmentsGone, hname] at hsegments
  refine ⟨t, hrun, ?_, hname ▸ hmoved.absent, hsegments hmanifest⟩
  rw [hafter, ← hbefore, hcontent]

end SegmentedFiles.Volume
