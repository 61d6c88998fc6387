import SegmentedFiles.Proofs.Volume.Parents
import SegmentedFiles.Proofs.Volume.Remove
import SegmentedFiles.Volume.Replace

/-! # Operations that leave files in segments whole or take them away

Storing a file in one piece, moving a file and removing a tree write no segments. `Volume.Pruned` is what
they have in common, wherever they stop: the files in segments that are still there have the segments
that they had. -/

namespace SegmentedFiles.Volume

open MemoryStore (answer Without)
open VolumeAction

variable {v : Volume} {m t u : MemoryStore} {name path : String} {o : StoredObject}
  {fails : StoreCall → Prop}

/-- From `m` to `t` no file in segments is made. Those that are still there are as they were, with all of
their segments. Segments may be gone, but there are no new ones. -/
structure Pruned (v : Volume) (m t : MemoryStore) : Prop where
  containers : ∀ container ∈ m.containers, container ∈ t.containers
  putBudget : t.putBudget = m.putBudget
  bulkFault : t.bulkFault = m.bulkFault
  segment : ∀ text o, t.object? v.segmentsContainer text = some o →
    m.object? v.segmentsContainer text = some o
  manifest : ∀ name o ref, t.object? v.container name = some o → o.manifest = some ref →
    m.object? v.container name = some o ∧
      ∀ s, t.object? v.segmentsContainer (Segment.name name s)
        = m.object? v.segmentsContainer (Segment.name name s)

namespace Pruned

theorem refl (v : Volume) (m : MemoryStore) : v.Pruned m m :=
  ⟨fun _ h => h, rfl, rfl, fun _ _ h => h, fun _ _ _ ho _ => ⟨ho, fun _ => rfl⟩⟩

theorem trans (h : v.Pruned m t) (h' : v.Pruned t u) : v.Pruned m u := by
  refine ⟨fun c hc => h'.containers c (h.containers c hc), h'.putBudget.trans h.putBudget,
    h'.bulkFault.trans h.bulkFault, fun text o ho => h.segment text o (h'.segment text o ho), ?_⟩
  intro name o ref ho hmanifest
  obtain ⟨hthere, hsame'⟩ := h'.manifest name o ref ho hmanifest
  obtain ⟨hobject, hsame⟩ := h.manifest name o ref hthere hmanifest
  exact ⟨hobject, fun s => (hsame' s).trans (hsame s)⟩

theorem ready (h : v.Pruned m t) (hm : v.Ready m) : v.Ready t :=
  ⟨h.containers _ hm.container, h.containers _ hm.segments, h.putBudget.trans hm.putBudget⟩

theorem ownManifests (h : v.Pruned m t) (hm : v.OwnManifests m) : v.OwnManifests t :=
  fun name o ref ho hmanifest => hm name o ref (h.manifest name o ref ho hmanifest).1 hmanifest

theorem hasManifest (h : v.Pruned m t) (ht : v.HasManifest t name) : v.HasManifest m name := by
  obtain ⟨o, ho, href⟩ := ht
  exact ⟨o, (h.manifest name o _ ho href).1, href⟩

/-- A plain object is put in the place of whatever was there. -/
theorem place (hplain : o.manifest = none) : v.Pruned m (m.place v.container name o) := by
  have hsegment : ∀ text, (m.place v.container name o).object? v.segmentsContainer text
      = m.object? v.segmentsContainer text :=
    fun text => MemoryStore.object?_place_of_ne fun h => v.segmentsContainer_ne h.1
  refine ⟨fun _ => MemoryStore.mem_containers_place, rfl, rfl,
    fun text o' ho' => hsegment text ▸ ho', ?_⟩
  intro name' o' ref ho' hmanifest
  refine ⟨?_, fun s => hsegment _⟩
  rw [MemoryStore.object?_place] at ho'
  split at ho'
  · cases ho'
    rw [hplain] at hmanifest
    cases hmanifest
  · exact ho'

/-- Objects are gone, but no segments of manifests that are still there. -/
theorem of_without {gone : String → String → Prop} (h : Without gone m t)
    (hkept : ∀ name o ref, t.object? v.container name = some o → o.manifest = some ref →
      ∀ s, ¬gone v.segmentsContainer (Segment.name name s)) : v.Pruned m t := by
  refine ⟨h.containers, h.putBudget, h.bulkFault, fun text o ho => ((h.object _ _ _).1 ho).1, ?_⟩
  intro name o ref ho hmanifest
  exact ⟨((h.object _ _ _).1 ho).1, fun s => h.same (hkept name o ref ho hmanifest s)⟩

theorem vacate (v : Volume) (m : MemoryStore) (name : String) :
    v.Pruned m (m.vacate v.container name) :=
  of_without (.vacate m _ _) fun _ _ _ _ _ _ h => v.segmentsContainer_ne h.1

end Pruned

theorem ParentsMade.pruned (h : v.ParentsMade path m t) : v.Pruned m t := by
  refine ⟨h.containers, h.putBudget, h.bulkFault, fun text o ho => h.segment text ▸ ho, ?_⟩
  intro name o ref ho hmanifest
  refine ⟨?_, fun s => h.segment _⟩
  rcases h.object v.container name with hsame | ⟨-, -, -, o', ho', hdirectory⟩
  · exact hsame ▸ ho
  · rw [ho] at ho'
    cases ho'
    rw [hdirectory.manifest] at hmanifest
    cases hmanifest

/-- What a manifest refers to are not the segments of another one. -/
theorem OwnManifests.eq_of_refers {other : String} {ref : ManifestRef} {s : Nat}
    (hm : v.OwnManifests m) (ho : m.object? v.container other = some o) (href : o.manifest = some ref)
    (hrefers : Refers (v.manifestRef name) v.segmentsContainer (Segment.name other s)) :
    other = name :=
  Segment.eq_of_belongsTo_name (hm other o ref ho href).2 hrefers.2

/-- The segments of a manifest that is not there any more may be deleted. -/
theorem removeSegments_prunes (hm : v.Ready m) (hown : v.OwnManifests m)
    (hgone : ¬v.HasManifest m name) :
    Ensures (answer.mayFail fails) (removeSegments path (v.manifestRef name)) m
      (fun _ t => v.Pruned m t) fun _ t => v.Pruned m t := by
  have hpruned : ∀ gone t, (∀ c n, gone c n → Refers (v.manifestRef name) c n) → Without gone m t →
      v.Pruned m t := by
    intro gone t hrefers ht
    refine .of_without ht ?_
    intro other o ref ho href s hs
    have hthere := ((ht.object _ _ _).1 ho).1
    have hother := hown.eq_of_refers hthere href (hrefers _ _ hs)
    subst hother
    exact hgone ⟨o, hthere, href.trans (congrArg some (hown _ o ref hthere href).1)⟩
  refine (removeSegments_ensures (singly_mayFail fails) hm.segments).mono ?_ ?_
  · intro _ t ht
    exact hpruned _ t (fun _ _ h => h) ht
  · intro _ t ht
    obtain ⟨-, gone, hrefers, ht⟩ := ht
    exact hpruned gone t hrefers ht

/-- The same where there may have been no manifest before. -/
theorem removeFound_prunes {found : Option ManifestRef} (hm : v.Ready m) (hown : v.OwnManifests m)
    (hfound : ∀ ref, found = some ref → ref = v.manifestRef name) (hgone : ¬v.HasManifest m name) :
    Ensures (answer.mayFail fails) (removeFound path found) m (fun _ t => v.Pruned m t)
      fun _ t => v.Pruned m t := by
  cases found with
  | none => exact ensures_pure (.refl v m)
  | some ref =>
    obtain rfl := hfound ref rfl
    exact removeSegments_prunes hm hown hgone

theorem not_hasManifest_place (hplain : o.manifest = none) :
    ¬v.HasManifest (m.place v.container name o) name := by
  intro h
  obtain ⟨o', ho', href⟩ := h
  rw [MemoryStore.object?_place_self] at ho'
  cases ho'
  rw [hplain] at href
  cases href

theorem writeAll_prunes (path : String) (content : Payload) (hm : v.Ready m)
    (hown : v.OwnManifests m) :
    Ensures (answer.mayFail fails) (v.writeAll path content) m (fun _ t => v.Pruned m t)
      fun _ t => v.Pruned m t := by
  refine ensures_writeAll (fun _ => .refl v m) fun _ => ?_
  refine (makeParents_ensures path hm).bind_mono (fun _ t ht => ht.1.pruned) ?_
  intro _ t ht
  have hready := ht.ready hm
  refine ensures_replaceObject (fun _ _ => ht.pruned) ?_
  refine ensures_at_bind (MemoryStore.answer_put hready.container hready.putBudget) ?_
    fun _ _ => ht.pruned
  have hplaced : v.Pruned m (t.place v.container (v.storeName path)
      (t.written content (PutOptions.plain fileType))) := ht.pruned.trans (.place rfl)
  exact (removeFound_prunes (hplaced.ready hm) (hplaced.ownManifests hown)
    (ht.pruned.ownManifests hown).found_eq (not_hasManifest_place rfl)).mono
      (fun _ _ hu => hplaced.trans hu) fun _ _ hu => hplaced.trans hu

/-- An object is copied and deleted. There is no manifest then in either place. -/
theorem pruned_of_moved {source target : String} (o : StoredObject)
    (hne : v.storeName source ≠ v.storeName target) :
    v.Pruned m (v.relocated source target o m) ∧
      ¬v.HasManifest (v.relocated source target o m) (v.storeName source) ∧
      ¬v.HasManifest (v.relocated source target o m) (v.storeName target) := by
  refine ⟨(Pruned.place rfl).trans (.vacate v _ _), ?_, ?_⟩
  · intro h
    obtain ⟨o', ho', -⟩ := h
    rw [object?_relocated_source] at ho'
    cases ho'
  · intro h
    obtain ⟨o', ho', href⟩ := h
    rw [object?_relocated_target hne] at ho'
    cases ho'
    cases href

/-- The segments of two manifests that are not there any more may be deleted. -/
theorem removeBoth_prunes {source target gone gone' : String} {moved replaced : Option ManifestRef}
    (hm : v.Ready m) (hown : v.OwnManifests m)
    (hmoved : ∀ ref, moved = some ref → ref = v.manifestRef gone)
    (hreplaced : ∀ ref, replaced = some ref → ref = v.manifestRef gone')
    (hgone : ¬v.HasManifest m gone) (hgone' : ¬v.HasManifest m gone') :
    Ensures (answer.mayFail fails) (removeBoth source target moved replaced) m (fun _ t => v.Pruned m t)
      fun _ t => v.Pruned m t := by
  refine (removeFound_prunes hm hown hmoved hgone).bind ?_
  intro _ t ht
  exact (removeFound_prunes (ht.ready hm) (ht.ownManifests hown) hreplaced
    fun h => hgone' (ht.hasManifest h)).mono (fun _ _ hu => ht.trans hu) fun _ _ hu => ht.trans hu

/-- A move takes the segments of the file away once it is copied and deleted. -/
theorem move_prunes (source target : String) (hm : v.Ready m) (hown : v.OwnManifests m) :
    Ensures (answer.mayFail fails) (v.move source target) m (fun _ t => v.Pruned m t)
      fun _ t => v.Pruned m t := by
  refine ensures_move (fun _ => .refl v m) (fun _ => .refl v m) (fun _ => .refl v m)
    (fun _ _ _ => .refl v m) ?_
  intro _ _ hne o ho
  refine (makeParents_ensures target hm).bind_mono (fun _ u hu => hu.1.pruned) ?_
  intro _ u hu
  refine ensures_moveObject (hu.object_of_some ho) hne (fun _ _ => hu.pruned)
    (fun _ _ => hu.pruned.trans (.place rfl)) ?_
  obtain ⟨hmoved, hnosource, hnotarget⟩ := pruned_of_moved (m := u) o hne
  have hdeleted := hu.pruned.trans hmoved
  exact (removeBoth_prunes (hdeleted.ready hm) (hdeleted.ownManifests hown)
    (fun ref href => (hown _ o ref ho href).1) (hu.pruned.ownManifests hown).found_eq hnosource
    hnotarget).mono (fun _ _ hx => hdeleted.trans hx) fun _ _ hx => hdeleted.trans hx

/-! ## Removing a tree -/

/-- Objects that are deleted with what is attached to them. -/
theorem pruned_of_attached {done : List String} (hown : v.OwnManifests m)
    (h : Without (fun c n => ∃ name ∈ done, v.Attached m name c n) m t) : v.Pruned m t := by
  refine .of_without h ?_
  intro other o ref ho href s hgone
  obtain ⟨hthere, hkept⟩ := (h.object _ _ _).1 ho
  obtain ⟨name, hname, hattached⟩ := hgone
  rcases hattached with hobject | hrefers
  · exact v.segmentsContainer_ne hobject.1
  · obtain rfl := hown.eq_of_refers hthere href hrefers.2
    exact hkept ⟨other, hname, attached_object_iff.2 rfl⟩

/-- Targets are deleted in their order, so the objects are gone before their segments. -/
theorem pruned_of_bulkTargets {base : String} {done : List ObjectTarget}
    (hdone : done <+: v.bulkTargets m base (v.treeNames m base))
    (h : Without (fun c n => ⟨c, n⟩ ∈ done) m t) : v.Pruned m t := by
  refine .of_without h ?_
  intro name o ref ho _ s hsegment
  obtain ⟨hthere, hkept⟩ := (h.object _ _ _).1 ho
  have hbelow : Text.startsWith (Segment.name name s) (below base) = true := by
    rcases List.mem_append.1 (hdone.subset hsegment) with hmem | hmem
    · obtain ⟨n, -, hn⟩ := List.mem_map.1 hmem
      exact absurd (congrArg ObjectTarget.container hn).symm v.segmentsContainer_ne
    · obtain ⟨⟨text, object⟩, hobject, htext⟩ := List.mem_map.1 hmem
      obtain rfl : text = Segment.name name s := congrArg ObjectTarget.name htext
      exact (MemoryStore.mem_under.1 hobject).2
  have hname : ObjectTarget.mk v.container name ∈
      (v.treeNames m base).map (ObjectTarget.mk v.container) :=
    List.mem_map_of_mem (mem_treeNames.2 ⟨⟨o, hthere⟩, startsWith_name_iff.1 hbelow⟩)
  rcases List.prefix_or_prefix_of_prefix hdone (List.prefix_append _ _) with hobjects | hobjects
  · obtain ⟨n, -, hn⟩ := List.mem_map.1 (hobjects.subset hsegment)
    exact v.segmentsContainer_ne (congrArg ObjectTarget.container hn).symm
  · exact hkept (hobjects.subset hname)

/-- Batches that the store deletes as a whole, or not at all. -/
theorem removeInBulk_prunes {base : String} (hm : v.Ready m) (hfault : m.bulkFault = none) :
    Ensures (answer.mayFail fails) (v.removeInBulk path base (v.treeNames m base)) m
      (fun _ t => v.Pruned m t) fun _ t => v.Pruned m t := by
  have hbulk : Ensures (answer.mayFail fails) (v.removeInBulk path base (v.treeNames m base)) m
      (fun _ t => 0 = 0 ∧ Without (fun c n => ⟨c, n⟩ ∈ v.bulkTargets m base (v.treeNames m base)) m t)
      fun _ t => v.Pruned m t := by
    refine removeInBulk_ensures
      (fun done failed t => failed = 0 ∧ Without (fun c n => ⟨c, n⟩ ∈ done) m t)
      (singly_mayFail fails) hm ⟨rfl, .refl fun _ _ h => absurd h List.not_mem_nil⟩ ?_
      (fun failed _ ht => absurd ht.1 (Nat.succ_ne_zero failed)) fun _ => Pruned.refl v m
    intro done batch failed s reply t hdone _ hs hreply
    obtain ⟨rfl, hs⟩ := hs
    have hkept : v.Pruned m s := pruned_of_bulkTargets ((List.prefix_append done batch).trans hdone) hs
    rcases hreply with hreply | ⟨-, rfl, e, -, rfl⟩
    · rcases MemoryStore.answer_bulkDelete (hs.bulkFault.trans hfault) batch with
        ⟨-, e, he⟩ | ⟨-, summary, u, hu, herrors, hwithout⟩
      · rw [he] at hreply
        obtain ⟨rfl, rfl⟩ := Prod.mk.inj hreply
        exact hkept
      · rw [hu] at hreply
        obtain ⟨rfl, rfl⟩ := Prod.mk.inj hreply
        exact ⟨by rw [herrors]; rfl, hs.append hwithout⟩
    · exact hkept
  exact hbulk.mono (fun _ t ht => pruned_of_bulkTargets List.prefix_rfl ht.2) fun _ _ ht => ht

/-- A removal of which no single deletion fails. -/
theorem remove_prunes (path : String) (hm : v.Ready m) (hown : v.OwnManifests m)
    (hfault : m.bulkFault = none) (hdelete : ∀ c n, ¬fails (.delete c n)) :
    Ensures (answer.mayFail fails) (v.remove path) m (fun _ t => v.Pruned m t)
      fun _ t => v.Pruned m t := by
  refine remove_ensures (v.Pruned m) (singly_mayFail fails) hm.container (fun _ _ => .refl v m)
    (fun _ => .refl v m) (fun _ => .refl v m) (fun _ => .refl v m)
    (fun _ _ => removeInBulk_prunes hm hfault) fun _ t ht => ?_
  refine (removeObjects_ensures (singly_mayFail fails) (ht.ready hm) (ht.ownManifests hown) hdelete
    _).mono ?_ ?_
  · intro _ u hu
    exact ht.trans (pruned_of_attached (ht.ownManifests hown) hu)
  · intro _ u hu
    obtain ⟨-, done, hu⟩ := hu
    exact ht.trans (pruned_of_attached (ht.ownManifests hown) hu)

end SegmentedFiles.Volume
