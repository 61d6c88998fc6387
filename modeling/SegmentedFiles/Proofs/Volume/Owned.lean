import SegmentedFiles.Proofs.Volume.Run

/-! # Segments that belong to a file

On a store of which no call fails, an operation on files leaves no segment without a manifest that it
belongs to (`Volume.Owned`), whatever the result of the operation is. While the operation goes on there
are such segments: those of a plain object that is being converted, and those of a manifest that is
replaced or moved away. `Volume.OwnedBut` names the objects whose segments they are. -/

namespace SegmentedFiles.Volume

open MemoryStore (answer Without)
open VolumeAction

variable {v : Volume} {m t : MemoryStore} {name path : String} {o : StoredObject}
  {lost lost' : String → Prop}

/-- Every segment belongs to a manifest, or to an object in `lost`. -/
def OwnedBut (v : Volume) (lost : String → Prop) (m : MemoryStore) : Prop :=
  ∀ text o, m.object? v.segmentsContainer text = some o →
    ∃ name s, text = Segment.name name s ∧ (v.HasManifest m name ∨ lost name)

/-- Every segment belongs to a manifest. -/
def Owned (v : Volume) (m : MemoryStore) : Prop := v.OwnedBut (fun _ => False) m

namespace OwnedBut

/-- Segments may be new that belong to objects in `lost'`, and manifests may be gone of these. -/
theorem transfer (h : v.OwnedBut lost m)
    (hsegment : ∀ text o, t.object? v.segmentsContainer text = some o →
      (∃ o', m.object? v.segmentsContainer text = some o') ∨
        ∃ name s, text = Segment.name name s ∧ lost' name)
    (hmanifest : ∀ name, v.HasManifest m name → v.HasManifest t name ∨ lost' name)
    (hlost : ∀ name, lost name → lost' name) : v.OwnedBut lost' t := by
  intro text o ho
  rcases hsegment text o ho with ⟨o', ho'⟩ | ⟨name, s, hname, hin⟩
  · obtain ⟨name, s, hname, hthere | hin⟩ := h text o' ho'
    · exact ⟨name, s, hname, hmanifest name hthere⟩
    · exact ⟨name, s, hname, .inr (hlost name hin)⟩
  · exact ⟨name, s, hname, .inr hin⟩

theorem mono (h : v.OwnedBut lost m) (hlost : ∀ name, lost name → lost' name) : v.OwnedBut lost' m :=
  h.transfer (fun _ o ho => .inl ⟨o, ho⟩) (fun _ => .inl) hlost

/-- An object that is a manifest again is not lost. -/
theorem found (h : v.OwnedBut (fun n => lost n ∨ n = name) m) (hname : v.HasManifest m name) :
    v.OwnedBut lost m := by
  intro text o ho
  obtain ⟨other, s, hother, hthere | hin | rfl⟩ := h text o ho
  · exact ⟨other, s, hother, .inl hthere⟩
  · exact ⟨other, s, hother, .inr hin⟩
  · exact ⟨other, s, hother, .inl hname⟩

/-- Another object is put in the place of one, which may have been a manifest. -/
theorem place (h : v.OwnedBut lost m)
    (hname : v.HasManifest m name → v.HasManifest (m.place v.container name o) name ∨ lost' name)
    (hlost : ∀ name, lost name → lost' name) :
    v.OwnedBut lost' (m.place v.container name o) := by
  refine h.transfer ?_ ?_ hlost
  · intro text o' ho'
    rw [MemoryStore.object?_place_of_ne fun h => v.segmentsContainer_ne h.1] at ho'
    exact .inl ⟨o', ho'⟩
  · intro other hother
    by_cases hsame : other = name
    · exact hsame ▸ hname (hsame ▸ hother)
    · left
      unfold HasManifest
      rwa [MemoryStore.object?_place_of_ne fun h => hsame h.2]

theorem vacate (h : v.OwnedBut lost m) (hname : v.HasManifest m name → lost' name)
    (hlost : ∀ name, lost name → lost' name) : v.OwnedBut lost' (m.vacate v.container name) := by
  refine h.transfer ?_ ?_ hlost
  · intro text o' ho'
    rw [MemoryStore.object?_vacate_of_ne fun h => v.segmentsContainer_ne h.1] at ho'
    exact .inl ⟨o', ho'⟩
  · intro other hother
    by_cases hsame : other = name
    · exact .inr (hsame ▸ hname (hsame ▸ hother))
    · left
      unfold HasManifest
      rwa [MemoryStore.object?_vacate_of_ne fun h => hsame h.2]

/-- All that a manifest refers to is gone, so nothing of it is lost. -/
theorem removed (h : v.OwnedBut (fun n => lost n ∨ n = name) m)
    (ht : Without (Refers (v.manifestRef name)) m t) : v.OwnedBut lost t := by
  have hkept : ∀ other, v.HasManifest m other → v.HasManifest t other := by
    intro other hother
    obtain ⟨o, ho, href⟩ := hother
    exact ⟨o, (ht.object _ _ _).2 ⟨ho, fun h => v.segmentsContainer_ne h.1.symm⟩, href⟩
  intro text o ho
  obtain ⟨hthere, hleft⟩ := (ht.object _ _ _).1 ho
  obtain ⟨other, s, rfl, hmanifest | hin | rfl⟩ := h text o hthere
  · exact ⟨other, s, rfl, .inl (hkept other hmanifest)⟩
  · exact ⟨other, s, rfl, .inr hin⟩
  · exact absurd ⟨rfl, Segment.belongsTo_name⟩ hleft

end OwnedBut

/-! ## Steps that keep manifests -/

theorem ParentsMade.hasManifest (h : v.ParentsMade path m t) (hname : v.HasManifest m name) :
    v.HasManifest t name := by
  obtain ⟨o, ho, href⟩ := hname
  rcases h.object v.container name with hsame | ⟨-, -, hnone, -⟩
  · exact ⟨o, hsame.trans ho, href⟩
  · rw [ho] at hnone
    cases hnone

theorem ParentsMade.owned (h : v.ParentsMade path m t) (hm : v.Owned m) : v.Owned t :=
  hm.transfer (fun text o ho => .inl ⟨o, h.segment text ▸ ho⟩) (fun _ hname => .inl (h.hasManifest hname))
    fun _ hlost => hlost

theorem SegmentsChanged.hasManifest {other : String} (h : v.SegmentsChanged name m t)
    (hother : v.HasManifest m other) : v.HasManifest t other := by
  obtain ⟨o, ho, href⟩ := hother
  by_cases hsame : other = name
  · exact ⟨o, hsame ▸ h.file.trans (hsame ▸ ho), href⟩
  · rcases h.toConfined.file hsame with hkept | ⟨hnone, -⟩
    · exact ⟨o, hkept.trans ho, href⟩
    · rw [ho] at hnone
      cases hnone

theorem SegmentsChanged.ownedBut (h : v.SegmentsChanged name m t) (hm : v.OwnedBut (· = name) m) :
    v.OwnedBut (· = name) t := by
  refine hm.transfer ?_ (fun _ hother => .inl (h.hasManifest hother)) fun _ hlost => hlost
  intro text o ho
  by_cases htext : ∃ s, text = Segment.name name s
  · obtain ⟨s, hs⟩ := htext
    exact .inr ⟨name, s, hs, rfl⟩
  · exact .inl ⟨o, h.segment (fun s hs => htext ⟨s, hs⟩) ▸ ho⟩

/-! ## Writes -/

/-- Pieces are stored, unless a call fails. -/
theorem putSegments_runs (hm : v.Ready m) (sequence : Nat) (pieces : List Payload) :
    Ensures (answer.mayFail never) (v.putSegments path name sequence pieces) m
      (fun _ t => v.SegmentsChanged name m t) fun _ _ => False := by
  induction pieces generalizing m sequence with
  | nil => exact ensures_pure (.refl v name m)
  | cons piece rest ih =>
    refine ensures_at_bind (MemoryStore.answer_put hm.segments hm.putBudget) ?_
      fun _ hcall => hcall.elim
    have hplaced := SegmentsChanged.place v name m sequence (m.written piece (PutOptions.plain fileType))
    exact (ih (hplaced.ready hm) (sequence + 1)).mono (fun _ _ ht => hplaced.trans ht) fun _ _ h => h

/-- Every segment belongs to a manifest or to the object called `name`, which is a manifest. -/
structure OwnedWith (v : Volume) (name : String) (m : MemoryStore) : Prop where
  ready : v.Ready m
  manifest : v.HasManifest m name
  ownedBut : v.OwnedBut (· = name) m

theorem OwnedWith.owned (h : v.OwnedWith name m) : v.Owned m := by
  have hbut : v.OwnedBut (fun n => False ∨ n = name) m := h.ownedBut.mono fun _ hlost => .inr hlost
  exact hbut.found h.manifest

theorem OwnedWith.segmentsChanged (hm : v.OwnedWith name m) (h : v.SegmentsChanged name m t) :
    v.OwnedWith name t :=
  ⟨h.ready hm.ready, h.hasManifest hm.manifest, h.ownedBut hm.ownedBut⟩

theorem putManifest_owns (hm : v.Ready m) (h : v.OwnedBut (· = name) m) :
    Ensures (answer.mayFail never) (v.putManifest path name) m (fun _ t => v.OwnedWith name t)
      fun _ _ => False := by
  refine ensures_at_ok (MemoryStore.answer_put hm.container hm.putBudget) ?_ fun _ hcall => hcall.elim
  have hmanifest : v.HasManifest (m.place v.container name
      (m.written ByteArray.empty ⟨fileType, some (v.manifestRef name)⟩)) name :=
    ⟨_, MemoryStore.object?_place_self, rfl⟩
  refine ⟨(Confined.place (v.owns_object name)).ready hm, hmanifest, ?_⟩
  exact h.place (fun _ => .inl hmanifest) fun _ hlost => hlost

/-- A plain object's segments belong to no manifest until all are stored. -/
theorem convert_owns (hm : v.Ready m) (h : v.OwnedBut (· = name) m)
    (ho : m.object? v.container name = some o) (size : Nat) :
    Ensures (answer.mayFail never) (v.convert path name size) m (fun _ t => v.OwnedWith name t)
      fun _ _ => False := by
  have hrest : ∀ content, Ensures (answer.mayFail never) (v.keepInSegments path name content) m
      (fun _ t => v.OwnedWith name t) fun _ _ => False := by
    intro content
    refine (clearSegments_ensures hm).bind_mono (fun _ _ ht => ht.2.elim fun _ hcall => hcall) ?_
    intro _ t ht
    refine (putSegments_runs (ht.1.ready hm) 1 _).bind ?_
    intro _ u hu
    have hchanged := ht.1.toSegmentsChanged.trans hu
    refine (putManifest_owns (hchanged.ready hm) (hchanged.ownedBut h)).bind ?_
    intro _ w hw
    exact ensures_pure hw
  rw [convert_eq]
  split
  · exact hrest _
  · exact ensures_at_bind (MemoryStore.answer_get ho) (hrest _) fun _ hcall => hcall.elim

theorem prepare_owns (hm : v.Ready m) (hown : v.OwnManifests m) (h : v.Owned m) :
    Ensures (answer.mayFail never) (v.prepare path) m
      (fun _ t => v.OwnedWith (v.storeName path) t) fun _ t => v.Owned t := by
  have hbut : v.OwnedBut (· = v.storeName path) m := h.mono fun _ => False.elim
  cases ho : m.object? v.container (v.storeName path) with
  | none =>
    refine ensures_prepare_of_none (fun _ hcall => hcall.elim) ho ?_
    refine (makeParents_ensures path hm).bind_mono (fun _ _ ht => ht.1.owned h) ?_
    intro _ t ht
    have hready := ht.ready hm
    refine (clearSegments_ensures hready).bind_mono (fun _ _ hu => hu.2.elim fun _ hcall => hcall.elim) ?_
    intro _ u hu
    have hchanged := hu.1.toSegmentsChanged
    exact (putManifest_owns (hchanged.ready hready) (hchanged.ownedBut
      ((ht.owned h).mono fun _ => False.elim))).mono (fun _ _ hw => hw) fun _ _ hfalse => hfalse.elim
  | some o =>
    refine ensures_prepare_of_some (fun _ hcall => hcall.elim) ho ?_ (fun _ _ => h) ?_
    · intro hsome
      obtain ⟨ref, href⟩ := Option.isSome_iff_exists.1 hsome
      obtain ⟨rfl, -⟩ := hown _ o ref ho href
      rw [segments_eq]
      simp only [bind_assoc, pure_bind]
      refine ensures_at_bind (MemoryStore.answer_list_all hm.segments) ?_ fun _ hcall => hcall.elim
      exact ensures_pure ⟨hm, ⟨o, ho, href⟩, hbut⟩
    · intro _ _
      exact (convert_owns hm hbut ho _).mono (fun _ _ ht => ht) fun _ _ hfalse => hfalse.elim

/-- Once its file is a manifest, a write changes segments of this file only. -/
theorem write_owned (hm : v.Ready m) (hown : v.OwnManifests m) (h : v.Owned m) (offset : Nat)
    (source : Source) :
    Interaction.Ensures (answer.mayFail never) (v.write path offset source) m
      fun _ t => v.Owned t := by
  have hbegin : Ensures (answer.mayFail never) (v.beginWrite path offset) m
      (fun _ t => v.OwnedWith (v.storeName path) t) fun _ t => v.Owned t := by
    refine ensures_beginWrite (fun _ => h) (fun _ => prepare_owns hm hown h) fun _ lengths t ht => ?_
    refine Ensures.mono (((v.segmentFrame_segmentsChanged _).pad _).ensures t) (fun _ u hu => ?_)
      fun _ u hu => ?_
    · exact ht.segmentsChanged (hu ht.ready)
    · exact (ht.segmentsChanged (hu ht.ready)).owned
  refine ensures_write hbegin fun plan lengths t ht => ?_
  refine Interaction.Ensures.mono ((v.segmentFrame_segmentsChanged _).writeFrom _ _ _ _ _ _ t) ?_
  intro _ u hu
  exact (ht.segmentsChanged (hu ht.ready)).owned

/-! ## Whole files -/

/-- The segments of a manifest that is not there any more are deleted. -/
theorem removeFound_owns (path : String) {found : Option ManifestRef} (hm : v.Ready m)
    (hfound : ∀ ref, found = some ref → ref = v.manifestRef name)
    (h : v.OwnedBut (fun n => lost n ∨ n = name ∧ found.isSome) m) :
    Ensures (answer.mayFail never) (removeFound path found) m
      (fun _ t => v.Ready t ∧ v.OwnedBut lost t) fun _ _ => False := by
  cases found with
  | none => exact ensures_pure ⟨hm, h.mono fun _ hlost => hlost.elim id fun hnone => nomatch hnone.2⟩
  | some ref =>
    obtain rfl := hfound ref rfl
    refine (removeSegments_ensures (singly_mayFail never) hm.segments).mono ?_ ?_
    · intro _ t ht
      exact ⟨hm.without ht, (h.mono fun _ hlost => hlost.imp_right And.left).removed ht⟩
    · intro _ t ht
      rcases ht.1 with ⟨-, _, hcall⟩ | ⟨_, _, hcall⟩
      · exact hcall
      · exact hcall

theorem writeAll_owned (path : String) (content : Payload) (hm : v.Ready m) (hown : v.OwnManifests m)
    (h : v.Owned m) :
    Ensures (answer.mayFail never) (v.writeAll path content) m (fun _ t => v.Owned t)
      fun _ t => v.Owned t := by
  refine ensures_writeAll (fun _ => h) fun _ => ?_
  refine (makeParents_ensures path hm).bind_mono (fun _ _ ht => ht.1.owned h) ?_
  intro _ t ht
  have hready := ht.ready hm
  have htown := ht.ownKept.own hown
  refine ensures_replaceObject (fun _ hcall => hcall.elim fun _ h => h.elim) ?_
  refine ensures_at_bind (MemoryStore.answer_put hready.container hready.putBudget) ?_
    fun _ hcall => hcall.elim
  have hreplaced : v.OwnedBut (fun n => False ∨ n = v.storeName path ∧
      ((t.object? v.container (v.storeName path)).bind StoredObject.manifest).isSome)
      (t.place v.container (v.storeName path) (t.written content (PutOptions.plain fileType))) :=
    (ht.owned h).place (fun hmanifest => .inr (.inr ⟨rfl, htown.isSome_found_iff.2 hmanifest⟩))
      fun _ => .inl
  exact (removeFound_owns path ((Confined.place (v.owns_object (v.storeName path))).ready hready)
    htown.found_eq hreplaced).mono (fun _ _ hu => hu.2) fun _ _ hfalse => hfalse.elim

/-- The segments of two manifests that are not there any more are deleted. -/
theorem removeBoth_owns {source target gone gone' : String} {moved replaced : Option ManifestRef}
    (hm : v.Ready m) (hmoved : ∀ ref, moved = some ref → ref = v.manifestRef gone)
    (hreplaced : ∀ ref, replaced = some ref → ref = v.manifestRef gone')
    (h : v.OwnedBut (fun n => (False ∨ n = gone' ∧ replaced.isSome) ∨ n = gone ∧ moved.isSome) m) :
    Ensures (answer.mayFail never) (removeBoth source target moved replaced) m (fun _ t => v.Owned t)
      fun _ _ => False := by
  refine (removeFound_owns source hm hmoved h).bind ?_
  intro _ t ht
  exact (removeFound_owns target ht.1 hreplaced ht.2).mono (fun _ _ hu => hu.2) fun _ _ hfalse => hfalse

theorem move_owned (source target : String) (hm : v.Ready m) (hown : v.OwnManifests m)
    (h : v.Owned m) :
    Ensures (answer.mayFail never) (v.move source target) m (fun _ t => v.Owned t)
      fun _ t => v.Owned t := by
  refine ensures_move (fun _ => h) (fun _ => h) (fun _ => h) (fun _ _ _ => h) ?_
  intro _ _ hne o ho
  refine (makeParents_ensures target hm).bind_mono (fun _ _ hu => hu.1.owned h) ?_
  intro _ u hu
  have hready := hu.ready hm
  have huown := hu.ownKept.own hown
  have hsource := hu.object_of_some ho
  refine ensures_moveObject hsource hne (fun _ hcall => hcall.elim fun _ h => h.elim)
    (fun _ hcall => hcall.elim fun _ h => h.elim) ?_
  have hcopied : v.OwnedBut (fun n => False ∨ n = v.storeName target ∧
      ((u.object? v.container (v.storeName target)).bind StoredObject.manifest).isSome)
      (v.copied target o u) :=
    (hu.owned h).place (fun hthere => .inr (.inr ⟨rfl, huown.isSome_found_iff.2 hthere⟩)) fun _ => .inl
  have hrelocated : v.OwnedBut (fun n => (False ∨ n = v.storeName target ∧
      ((u.object? v.container (v.storeName target)).bind StoredObject.manifest).isSome) ∨
      n = v.storeName source ∧ o.manifest.isSome) (v.relocated source target o u) := by
    refine hcopied.vacate (fun hthere => .inr ⟨rfl, ?_⟩) fun _ => .inl
    obtain ⟨o', ho', href⟩ := hthere
    rw [copied, MemoryStore.object?_place_of_ne fun h => hne h.2, hsource] at ho'
    rw [Option.some.inj ho', href]
    rfl
  refine (removeBoth_owns ?_ (fun ref href => (hown _ o ref ho href).1) huown.found_eq hrelocated).mono
    (fun _ _ hx => hx) fun _ _ hfalse => hfalse.elim
  exact (Confined.vacate (v.owns_object _)).ready ((Confined.place (v.owns_object _)).ready hready)

end SegmentedFiles.Volume
