import Mathlib.Data.List.Perm.Subperm
import SegmentedFiles.Proofs.Volume.Run

/-! # Segments that a removal leaves behind

Bulk deletes may be carried out in part before one of them fails. The removal then goes on with single
objects, and finds segments only through the manifests that are still there. So it leaves no segments if
and only if the bulk deletes have left none whose manifest is gone (`removed_iff_noOrphans`). Where the
segments of a file do not fit into one batch with it, the failure of a later batch is enough for
segments to be left by a removal that reports success (`orphan_of_batches`). -/

namespace SegmentedFiles

namespace MemoryStore

variable {m t : MemoryStore} {reply : Except StoreError BulkDeleteSummary} {targets : List ObjectTarget}

/-- The store in memory, but a bulk delete may take away any of its targets. It fails, or tells of errors
unless all are gone. -/
def answerInPart : (call : StoreCall) → MemoryStore → call.Reply → MemoryStore → Prop
  | .bulkDelete targets, m, reply, t =>
    (∃ gone, (∀ c n, gone c n → ⟨c, n⟩ ∈ targets) ∧ Without gone m t) ∧
      ∀ summary, reply = .ok summary → summary.errors = [] →
        ∀ target ∈ targets, t.object? target.container target.name = none
  | call, m, reply, t => answer call m = (reply, t)

/-- The store in memory, where the bulk deletes with a certain target fail and others do not. -/
def answerUnless (target : ObjectTarget) : Store MemoryStore
  | .bulkDelete targets, m =>
    if target ∈ targets then (.error injected, m)
    else
      let (summary, m) := m.eraseAll targets BulkDeleteSummary.empty
      (.ok summary, m)
  | call, m => answer call m

theorem answerUnless_of_mem {target : ObjectTarget} (h : target ∈ targets) :
    answerUnless target (.bulkDelete targets) m = (.error injected, m) := by
  rw [answerUnless, if_pos h]

theorem answerUnless_of_not_mem {target : ObjectTarget} (h : target ∉ targets) :
    ∃ summary t, answerUnless target (.bulkDelete targets) m = (.ok summary, t) ∧
      summary.errors = [] ∧ Without (fun c n => ⟨c, n⟩ ∈ targets) m t := by
  obtain ⟨herrors, ht⟩ := eraseAll_without m targets BulkDeleteSummary.empty
  exact ⟨_, _, by rw [answerUnless, if_neg h], herrors, ht⟩

/-- The failure of some bulk deletes is one way in which the targets of all may be taken away in part. -/
theorem answerInPart_of_answerUnless {target : ObjectTarget} {call : StoreCall} {reply : call.Reply}
    (h : answerUnless target call m = (reply, t)) : answerInPart call m reply t := by
  cases call with
  | bulkDelete targets =>
    by_cases hmem : target ∈ targets
    · rw [answerUnless_of_mem hmem] at h
      obtain ⟨rfl, rfl⟩ := Prod.mk.inj h
      exact ⟨⟨_, fun _ _ => False.elim, .nothing m⟩, nofun⟩
    · obtain ⟨summary, u, hu, -, hwithout⟩ := answerUnless_of_not_mem (m := m) hmem
      rw [hu] at h
      obtain ⟨rfl, rfl⟩ := Prod.mk.inj h
      exact ⟨⟨_, fun _ _ hgone => hgone, hwithout⟩, fun _ _ _ target htarget => hwithout.none htarget⟩
  | _ => exact h

end MemoryStore

namespace Volume

open Interaction (Outcome)
open MemoryStore (answer answerInPart Without)
open VolumeAction

variable {v : Volume} {m t u start : MemoryStore} {name path base : String}

theorem singly_answerInPart : Singly answerInPart never := by
  intro call s reply t hcall h
  cases call with
  | bulkDelete targets => exact absurd rfl (hcall targets)
  | _ => exact .inl h

/-- Each segment that lies below `base` belongs to a manifest at `base` or below it. -/
def NoOrphans (v : Volume) (m : MemoryStore) (base : String) : Prop :=
  ∀ text o, m.object? v.segmentsContainer text = some o → Text.startsWith text (below base) = true →
    ∃ name, AtOrBelow base name ∧ v.HasManifest m name ∧
      Segment.belongsTo (v.manifestRef name) text = true

/-- Bulk deletes take away nothing but their targets, and all of these if they do not fail. -/
theorem removeInBulk_inPart (hm : v.Ready m) (names : List String) :
    Ensures answerInPart (v.removeInBulk path base names) m
      (fun _ t => (∃ gone, Without gone m t) ∧
        ∀ target ∈ v.bulkTargets m base names, t.object? target.container target.name = none)
      fun _ t => ∃ gone, Without gone m t := by
  have hnothing : ∃ gone, Without gone m m := ⟨_, .nothing m⟩
  have hbulk : Ensures answerInPart (v.removeInBulk path base names) m
      (fun _ t => (∃ gone, Without gone m t) ∧ (0 = 0 →
        ∀ target ∈ v.bulkTargets m base names, t.object? target.container target.name = none))
      fun _ t => ∃ gone, Without gone m t := by
    refine removeInBulk_ensures (fun done failed t => (∃ gone, Without gone m t) ∧ (failed = 0 →
      ∀ target ∈ done, t.object? target.container target.name = none)) singly_answerInPart hm
      ⟨hnothing, fun _ _ h => nomatch h⟩ ?_ (fun _ _ h => h.1) fun _ => hnothing
    intro done batch failed s reply t _ _ hs hreply
    obtain ⟨⟨gone, hs⟩, hdone⟩ := hs
    obtain ⟨⟨gone', -, ht⟩, hbatch⟩ := hreply
    cases reply with
    | error e => exact ⟨_, hs.trans ht⟩
    | ok summary =>
      refine ⟨⟨_, hs.trans ht⟩, fun hfailed target htarget => ?_⟩
      rw [Nat.add_eq_zero_iff, List.length_eq_zero_iff] at hfailed
      rcases List.mem_append.1 htarget with htarget | htarget
      · cases ho : t.object? target.container target.name with
        | none => rfl
        | some o =>
          have hleft := ((ht.object _ _ _).1 ho).1
          rw [hdone hfailed.1 target htarget] at hleft
          cases hleft
      · exact hbatch summary rfl hfailed.2 target htarget
  exact hbulk.mono (fun _ _ ht => ⟨ht.1, ht.2 rfl⟩) fun _ _ ht => ht

/-- Single objects are deleted one after another. -/
def removeEach (v : Volume) (names : List String) : VolumeAction Unit := do
  for name in names do v.removeObject name

/-- From `m` to `t` the tree at `path` is removed, and `mid` is what the bulk deletes leave. If they fail
single deletions go on from there. -/
def RemovedThrough (v : Volume) (path : String) (m mid t : MemoryStore) : Prop :=
  Outcome answerInPart (v.removeInBulk path (v.storeDirectory path)
      (v.treeNames m (v.storeDirectory path))).run m (.ok ()) mid ∧ t = mid ∨
    ∃ e, Outcome answerInPart (v.removeInBulk path (v.storeDirectory path)
      (v.treeNames m (v.storeDirectory path))).run m (.error e) mid ∧
        Outcome answerInPart (v.removeEach (v.treeNames m (v.storeDirectory path))).run mid (.ok ()) t

/-- A removal that uses bulk deletes does nothing else. It fails only where there is nothing to remove. -/
theorem remove_inPart (hm : v.Proper m) (hbulk : v.bulkDelete = true) :
    Ensures answerInPart (v.remove path) m (fun _ t => ∃ mid, v.RemovedThrough path m mid t)
      fun _ _ => (Path.isBelowRoot path || path == "/") = false ∨
        v.treeNames m (v.storeDirectory path) = [] := by
  refine remove_ensures (fun mid => (∃ gone, Without gone m mid) ∧
    ∃ e, Outcome answerInPart (v.removeInBulk path (v.storeDirectory path)
      (v.treeNames m (v.storeDirectory path))).run m (.error e) mid) singly_answerInPart hm.ready.container
    (fun _ ⟨_, hcall⟩ => hcall.elim) .inl .inr (fun h => by rw [hbulk] at h; cases h) ?_ ?_
  · intro _ _
    refine (removeInBulk_inPart hm.ready _).outcome.mono ?_ ?_
    · intro _ t ht
      exact ⟨t, .inl ⟨ht.1, rfl⟩⟩
    · intro e t ht
      exact ⟨ht.2, e, ht.1⟩
  · intro _ mid hmid
    obtain ⟨⟨gone, hmid⟩, e, hend⟩ := hmid
    refine (removeObjects_ensures singly_answerInPart (hm.ready.without hmid) (hm.own.without hmid)
      (fun _ _ h => h) _).outcome.mono ?_ ?_
    · intro _ t ht
      exact ⟨mid, .inr ⟨e, hend, ht.1⟩⟩
    · intro _ t ht
      obtain ⟨-, ⟨_, hcall⟩, -⟩ := ht
      exact hcall.elim

/-- A tree of which the bulk deletes have taken away all of their targets. -/
theorem noOrphans_iff_of_bulk {gone : String → String → Prop} (ht : Without gone m t)
    (hall : ∀ target ∈ v.bulkTargets m base (v.treeNames m base),
      t.object? target.container target.name = none) :
    (∀ name, AtOrBelow base name → t.object? v.container name = none) ∧
      ((∀ text, Text.startsWith text (below base) = true →
          t.object? v.segmentsContainer text = none) ↔ v.NoOrphans t base) := by
  have hsegments : ∀ text, Text.startsWith text (below base) = true →
      t.object? v.segmentsContainer text = none := by
    intro text htext
    cases ho : t.object? v.segmentsContainer text with
    | none => rfl
    | some o =>
      have hmem := MemoryStore.mem_under.2 ⟨((ht.object _ _ _).1 ho).1, htext⟩
      exact ho ▸ hall ⟨v.segmentsContainer, text⟩
        (List.mem_append_right _ (List.mem_map.2 ⟨_, hmem, rfl⟩))
  constructor
  · intro name hname
    cases ho : t.object? v.container name with
    | none => rfl
    | some o =>
      have hmem : name ∈ v.treeNames m base :=
        mem_treeNames.2 ⟨⟨o, ((ht.object _ _ _).1 ho).1⟩, hname⟩
      exact ho ▸ hall ⟨v.container, name⟩ (List.mem_append_left _ (List.mem_map_of_mem hmem))
  · refine iff_of_true hsegments ?_
    intro text o ho htext
    rw [hsegments text htext] at ho
    cases ho

/-- A tree of which the bulk deletes have taken away something, and single deletions the rest. -/
theorem noOrphans_iff_of_each {mid : MemoryStore} {gone : String → String → Prop}
    (hmid : Without gone m mid)
    (ht : Without (fun c n => ∃ name ∈ v.treeNames m base, v.Attached mid name c n) mid t) :
    (∀ name, AtOrBelow base name → t.object? v.container name = none) ∧
      ((∀ text, Text.startsWith text (below base) = true →
          t.object? v.segmentsContainer text = none) ↔ v.NoOrphans mid base) := by
  -- Whatever is left at the path or below it has been there from the beginning.
  have hnames : ∀ name o, mid.object? v.container name = some o → AtOrBelow base name →
      name ∈ v.treeNames m base :=
    fun name o ho hname => mem_treeNames.2 ⟨⟨o, ((hmid.object _ _ _).1 ho).1⟩, hname⟩
  constructor
  · intro name hname
    cases ho : t.object? v.container name with
    | none => rfl
    | some o =>
      obtain ⟨hthere, hkept⟩ := (ht.object _ _ _).1 ho
      exact absurd ⟨name, hnames name o hthere hname, attached_object_iff.2 rfl⟩ hkept
  constructor
  · intro hsegments text o ho htext
    by_contra hno
    have hkept : t.object? v.segmentsContainer text = some o := by
      refine (ht.object _ _ _).2 ⟨ho, ?_⟩
      intro hattached
      obtain ⟨name, hname, hobject | ⟨hmanifest, hrefers⟩⟩ := hattached
      · exact v.segmentsContainer_ne hobject.1
      · exact hno ⟨name, (mem_treeNames.1 hname).2, hmanifest, hrefers.2⟩
    rw [hsegments text htext] at hkept
    cases hkept
  · intro hadopted text htext
    cases ho : t.object? v.segmentsContainer text with
    | none => rfl
    | some o =>
      obtain ⟨hthere, hkept⟩ := (ht.object _ _ _).1 ho
      obtain ⟨name, hname, hmanifest, hbelongs⟩ := hadopted text o hthere htext
      have hobject := hmanifest
      obtain ⟨o', ho', -⟩ := hobject
      exact absurd ⟨name, hnames name o' ho' hname, .inr ⟨hmanifest, rfl, hbelongs⟩⟩ hkept

/-- What has become of a tree that is removed. -/
theorem RemovedThrough.noOrphans_iff {mid : MemoryStore} (hm : v.Proper m)
    (h : v.RemovedThrough path m mid t) :
    (∀ name, AtOrBelow (v.storeDirectory path) name → t.object? v.container name = none) ∧
      ((∀ text, Text.startsWith text (below (v.storeDirectory path)) = true →
          t.object? v.segmentsContainer text = none) ↔ v.NoOrphans mid (v.storeDirectory path)) := by
  rcases h with ⟨hbulk, rfl⟩ | ⟨e, hbulk, hrest⟩
  · obtain ⟨⟨gone, ht⟩, hall⟩ := removeInBulk_inPart hm.ready _ (.ok ()) t hbulk
    exact noOrphans_iff_of_bulk ht hall
  · obtain ⟨gone, hmid⟩ := removeInBulk_inPart hm.ready _ (.error e) mid hbulk
    exact noOrphans_iff_of_each hmid (removeObjects_ensures singly_answerInPart (hm.ready.without hmid)
      (hm.own.without hmid) (fun _ _ h => h) _ (.ok ()) t hrest)

/-! ## Batches of which a later one fails -/

theorem singly_answerUnless (target : ObjectTarget) :
    Singly (fun call s reply t => MemoryStore.answerUnless target call s = (reply, t)) never := by
  intro call s reply t hcall h
  cases call with
  | bulkDelete targets => exact absurd rfl (hcall targets)
  | _ => exact .inl h

/-- If a part of a list begins before the end of `as` and ends behind it, then `as` ends within it. -/
theorem exists_split {α : Type} {as bs done batch : List α} {a b : α}
    (h : done ++ batch <+: as ++ bs) (ha : a ∈ as) (hdone : a ∉ done) (hb : b ∈ batch) (hnot : b ∉ as) :
    ∃ left rest, batch = left ++ rest ∧ done ++ left = as ∧ rest <+: bs := by
  have hbefore : done <+: as :=
    (List.prefix_or_prefix_of_prefix ((List.prefix_append done batch).trans h)
      (List.prefix_append _ _)).resolve_right fun hall => hdone (hall.subset ha)
  obtain ⟨left, rfl⟩ := hbefore
  rw [List.append_assoc, List.prefix_append_right_inj] at h
  have hleft : left <+: batch :=
    (List.prefix_or_prefix_of_prefix h (List.prefix_append _ _)).resolve_left fun hall =>
      hnot (List.mem_append_right _ (hall.subset hb))
  obtain ⟨rest, rfl⟩ := hleft
  rw [List.prefix_append_right_inj] at h
  exact ⟨left, rest, rfl, rfl, h⟩

/-- Segments are deleted in the order of their numbers. -/
theorem segment_mem_of_le {segments : List ObjectTarget} {i s : Nat}
    (hsegments : segments <+: (m.under v.segmentsContainer (below base)).map fun object =>
      ObjectTarget.mk v.segmentsContainer object.1)
    (hlast : ⟨v.segmentsContainer, Segment.name name s⟩ ∈ segments)
    (hi : ∃ o, m.object? v.segmentsContainer (Segment.name name i) = some o ∧
      Text.startsWith (Segment.name name i) (below base) = true)
    (his : i ≤ s) (hle : s ≤ Segment.maxSequence) :
    ⟨v.segmentsContainer, Segment.name name i⟩ ∈ segments := by
  obtain ⟨rest, hrest⟩ := hsegments
  obtain ⟨o, ho, hbelow⟩ := hi
  have hordered : (segments ++ rest).Pairwise fun a b => compare a.name b.name = .lt := by
    rw [hrest, List.pairwise_map]
    exact m.pairwise_under _ _
  have hlisted : ObjectTarget.mk v.segmentsContainer (Segment.name name i) ∈ segments ++ rest := by
    rw [hrest]
    exact List.mem_map.2 ⟨_, MemoryStore.mem_under.2 ⟨ho, hbelow⟩, rfl⟩
  rcases List.mem_append.1 hlisted with hthere | hbehind
  · exact hthere
  · have hlt := (List.pairwise_append.1 hordered).2.2 _ hlast _ hbehind
    rcases Nat.lt_or_eq_of_le his with hbefore | rfl
    · have hgt : compare (Segment.name name i) (Segment.name name s) = .lt :=
        Segment.compare_name (Nat.le_trans his hle) hle hbefore
      rw [Std.OrientedCmp.gt_of_lt hgt] at hlt
      cases hlt
    · exact hlast

/-- A batch with a segment whose number is not below the size of batches does not begin before the file's
object. -/
theorem object_mem_done {names : List String} {done batch : List ObjectTarget} {s : Nat}
    (hparts : done ++ batch <+: v.bulkTargets m base names)
    (hlength : batch.length ≤ bulkDeleteBatch) (hname : name ∈ names)
    (hsegments : ∀ i, i < s → ∃ o, m.object? v.segmentsContainer (Segment.name name (i + 1)) = some o ∧
      Text.startsWith (Segment.name name (i + 1)) (below base) = true)
    (hmem : ⟨v.segmentsContainer, Segment.name name s⟩ ∈ batch) (hs : bulkDeleteBatch ≤ s)
    (hle : s ≤ Segment.maxSequence) : ⟨v.container, name⟩ ∈ done := by
  by_contra hnot
  have hcontainer : ∀ text, ObjectTarget.mk v.segmentsContainer text ∉
      names.map (ObjectTarget.mk v.container) := by
    intro text hmem
    obtain ⟨n, -, hn⟩ := List.mem_map.1 hmem
    exact v.segmentsContainer_ne (congrArg ObjectTarget.container hn).symm
  have hobject : ObjectTarget.mk v.container name ∈ names.map (ObjectTarget.mk v.container) :=
    List.mem_map_of_mem hname
  obtain ⟨objects, segments, rfl, hobjects, hrest⟩ :=
    exists_split hparts hobject hnot hmem (hcontainer _)
  rw [← hobjects] at hobject hcontainer
  have hlast : ObjectTarget.mk v.segmentsContainer (Segment.name name s) ∈ segments :=
    (List.mem_append.1 hmem).resolve_left fun h => hcontainer _ (List.mem_append_right _ h)
  -- The object and the segments up to this one are more than fit into a batch.
  have hcount : (ObjectTarget.mk v.container name :: (List.range s).map fun i =>
      ObjectTarget.mk v.segmentsContainer (Segment.name name (i + 1))).length
        ≤ (objects ++ segments).length := by
    refine List.Subperm.length_le (List.Nodup.subperm ?_ ?_)
    · refine List.nodup_cons.2 ⟨?_, ?_⟩
      · intro h
        obtain ⟨i, -, hi⟩ := List.mem_map.1 h
        exact v.segmentsContainer_ne (congrArg ObjectTarget.container hi)
      · refine List.nodup_range.map_on ?_
        intro i _ j _ hij
        exact Nat.succ.inj (Segment.name_inj (congrArg ObjectTarget.name hij)).2
    · intro target htarget
      rcases List.mem_cons.1 htarget with rfl | htarget
      · exact List.mem_append_left _ ((List.mem_append.1 hobject).resolve_left hnot)
      · obtain ⟨i, hi, rfl⟩ := List.mem_map.1 htarget
        have his := List.mem_range.1 hi
        exact List.mem_append_right _ (segment_mem_of_le hrest hlast (hsegments i his) his hle)
  rw [List.length_cons, List.length_map, List.length_range] at hcount
  omega

/-- The batches before the one with the target are carried out. -/
theorem removeInBulk_answerUnless {names : List String} {target : ObjectTarget} (hm : v.Ready m)
    (htarget : target ∈ v.bulkTargets m base names) :
    Ensures (fun call s reply t => MemoryStore.answerUnless target call s = (reply, t))
      (v.removeInBulk path base names) m (fun _ _ => False)
      fun _ t => ∃ done batch, done ++ batch <+: v.bulkTargets m base names ∧
        batch.length ≤ bulkDeleteBatch ∧ target ∈ batch ∧ target ∉ done ∧
          Without (fun c n => ⟨c, n⟩ ∈ done) m t := by
  have hbulk : Ensures (fun call s reply t => MemoryStore.answerUnless target call s = (reply, t))
      (v.removeInBulk path base names) m
      (fun _ t => 0 = 0 ∧ target ∉ v.bulkTargets m base names ∧
        Without (fun c n => ⟨c, n⟩ ∈ v.bulkTargets m base names) m t)
      fun _ t => ∃ done batch, done ++ batch <+: v.bulkTargets m base names ∧
        batch.length ≤ bulkDeleteBatch ∧ target ∈ batch ∧ target ∉ done ∧
          Without (fun c n => ⟨c, n⟩ ∈ done) m t := by
    refine removeInBulk_ensures (fun done failed t => failed = 0 ∧ target ∉ done ∧
      Without (fun c n => ⟨c, n⟩ ∈ done) m t) (singly_answerUnless target) hm
      ⟨rfl, List.not_mem_nil, .refl fun _ _ h => absurd h List.not_mem_nil⟩ ?_
      (fun failed _ h => absurd h.1 (Nat.succ_ne_zero failed)) fun ⟨_, hcall⟩ => hcall.elim
    intro done batch failed s reply t hparts hlength hs hreply
    obtain ⟨rfl, hnot, hs⟩ := hs
    by_cases hmem : target ∈ batch
    · rw [MemoryStore.answerUnless_of_mem hmem] at hreply
      obtain ⟨rfl, rfl⟩ := Prod.mk.inj hreply
      exact ⟨done, batch, hparts, hlength, hmem, hnot, hs⟩
    · obtain ⟨summary, u, hu, herrors, hwithout⟩ := MemoryStore.answerUnless_of_not_mem (m := s) hmem
      rw [hu] at hreply
      obtain ⟨rfl, rfl⟩ := Prod.mk.inj hreply
      refine ⟨by rw [herrors]; rfl, ?_, hs.append hwithout⟩
      rw [List.mem_append, not_or]
      exact ⟨hnot, hmem⟩
  exact hbulk.mono (fun _ _ h => h.2.1 htarget) fun _ _ h => h

/-- Single deletions find no segments of an object that is gone. -/
theorem removeObjects_keeps {fails : StoreCall → Prop} {o : StoredObject} {s : Nat}
    {answers : (call : StoreCall) → MemoryStore → call.Reply → MemoryStore → Prop}
    (hanswers : Singly answers fails) (hnever : ∀ call, ¬fails call) (hm : v.Ready m)
    (hown : v.OwnManifests m) (hlast : name.toList.getLast? ≠ some '/')
    (hnone : m.object? v.container name = none)
    (ho : m.object? v.segmentsContainer (Segment.name name s) = some o) (names : List String) :
    Ensures answers (do for name in names do v.removeObject name) m
      (fun _ t => t.object? v.segmentsContainer (Segment.name name s) = some o) fun _ _ => False := by
  refine (removeObjects_ensures hanswers hm hown (fun _ _ => hnever _) names).mono ?_ ?_
  · intro _ t ht
    refine (ht.object _ _ _).2 ⟨ho, ?_⟩
    intro hattached
    obtain ⟨other, -, hobject | ⟨⟨o', ho', -⟩, hrefers⟩⟩ := hattached
    · exact v.segmentsContainer_ne hobject.1
    · rw [← Segment.eq_of_belongsTo_name hlast hrefers.2, hnone] at ho'
      cases ho'
  · intro _ t ht
    obtain ⟨⟨call, hcall⟩, -⟩ := ht
    exact hnever call hcall

/-- A file whose segments are too many for one batch is removed, and the batch with a late one of them
fails. The file is gone then and the segment is still there, but the removal reports success. -/
theorem orphan_of_batches {s : Nat} (hm : v.Proper m) (hbulk : v.bulkDelete = true)
    (hpath : Path.isBelowRoot path = true) (hfile : v.HasManifest m (v.storeName path))
    (hsegments : ∀ i, i < s →
      ∃ o, m.object? v.segmentsContainer (Segment.name (v.storeName path) (i + 1)) = some o)
    (hs : bulkDeleteBatch ≤ s) (hle : s ≤ Segment.maxSequence) :
    ∃ t o, Outcome answerInPart (v.remove path).run m (.ok ()) t ∧
      t.object? v.segmentsContainer (Segment.name (v.storeName path) s) = some o := by
  obtain ⟨o, ho⟩ : ∃ o, m.object? v.segmentsContainer (Segment.name (v.storeName path) s) = some o := by
    have hpos : 0 < s := Nat.lt_of_lt_of_le (by decide) hs
    have hlast := hsegments (s - 1) (by omega)
    rwa [Nat.sub_add_cancel hpos] at hlast
  have hdirectory : v.storeDirectory path = v.storeName path := storeDirectory_eq hpath
  have hbelow : ∀ i, Text.startsWith (Segment.name (v.storeName path) i)
      (below (v.storeDirectory path)) = true :=
    fun _ => startsWith_name_iff.2 (.inr (.inl hdirectory.symm))
  have hname : v.storeName path ∈ v.treeNames m (v.storeDirectory path) := by
    obtain ⟨o, ho, -⟩ := hfile
    exact mem_treeNames.2 ⟨⟨o, ho⟩, .inr (.inl hdirectory.symm)⟩
  have hlisted : ObjectTarget.mk v.segmentsContainer (Segment.name (v.storeName path) s) ∈
      v.bulkTargets m (v.storeDirectory path) (v.treeNames m (v.storeDirectory path)) :=
    List.mem_append_right _ (List.mem_map.2 ⟨_, MemoryStore.mem_under.2 ⟨ho, hbelow s⟩, rfl⟩)
  generalize hanswers : (fun (call : StoreCall) s' reply t => MemoryStore.answerUnless
    ⟨v.segmentsContainer, Segment.name (v.storeName path) s⟩ call s' = (reply, t)) = answers
  have hsingly : Singly answers never := hanswers ▸ singly_answerUnless _
  have hends : Ensures answers (v.remove path) m
      (fun _ t => t.object? v.segmentsContainer (Segment.name (v.storeName path) s) = some o)
      fun _ _ => False := by
    refine remove_ensures (fun mid => mid.object? v.container (v.storeName path) = none ∧
      mid.object? v.segmentsContainer (Segment.name (v.storeName path) s) = some o ∧
        ∃ gone, Without gone m mid) hsingly hm.ready.container (fun _ ⟨_, hcall⟩ => hcall) ?_ ?_
      (fun h => by rw [hbulk] at h; cases h) ?_ ?_
    · intro hinvalid
      rw [hpath] at hinvalid
      cases hinvalid
    · intro hempty
      rw [hempty] at hname
      cases hname
    · intro _ _
      rw [← hanswers]
      refine (removeInBulk_answerUnless hm.ready hlisted).mono (fun _ _ h => h.elim) ?_
      intro _ mid hmid
      obtain ⟨done, batch, hparts, hlength, hmem, hnot, hmid⟩ := hmid
      have hdone : ⟨v.container, v.storeName path⟩ ∈ done := by
        refine object_mem_done hparts hlength hname (fun i hi => ?_) hmem hs hle
        obtain ⟨o, ho⟩ := hsegments i hi
        exact ⟨o, ho, hbelow (i + 1)⟩
      exact ⟨hmid.none hdone, (hmid.same hnot).trans ho, _, hmid⟩
    · intro _ mid hmid
      obtain ⟨hnone, hleft, gone, hmid⟩ := hmid
      exact removeObjects_keeps hsingly (fun _ h => h) (hm.ready.without hmid) (hm.own.without hmid)
        (getLast?_storeName hpath) hnone hleft _
  cases hrun : (v.remove path).runOn (MemoryStore.answerUnless
      ⟨v.segmentsContainer, Segment.name (v.storeName path) s⟩) m with
  | mk r t =>
    have houtcome := Interaction.outcome_answerer_iff.2 hrun
    have hend := hends r t (hanswers ▸ houtcome)
    cases r with
    | ok _ => exact ⟨t, o, houtcome.mono fun _ _ _ _ => MemoryStore.answerInPart_of_answerUnless, hend⟩
    | error e => exact hend.elim

/-- A volume with segments of one byte. -/
def byteVolume : Volume := ⟨"files", "", 1, by decide, true⟩

theorem create_byteVolume :
    (create ⟨"files", "", 1⟩).runOn answer (MemoryStore.empty true Timestamp.epoch) =
      (.ok byteVolume, fresh "files" true Timestamp.epoch) :=
  create_runOn (by decide) (by decide)

/-- A file of ten thousand bytes is written and removed, and the last of its segments is left. -/
theorem exists_orphan : ∃ m t o,
    byteVolume.Run (fun _ => never) (fun _ _ => True) (fresh "files" true Timestamp.epoch) m ∧
      Outcome answerInPart (byteVolume.remove "/f").run m (.ok ()) t ∧
        t.object? "files_segments" "f/0000000000010000" = some o := by
  have hname : byteVolume.storeName "/f" = "f" := by decide
  have hlength : (Source.ofPieces [Payload.zeros 10000] none).bytes.length = 10000 := by
    rw [Source.bytes_ofPieces, List.flatMap_cons, List.flatMap_nil, List.append_nil,
      Payload.length_bytes, Payload.size_zeros]
  have hfits : 0 + (Source.ofPieces [Payload.zeros 10000] none).bytes.length
      ≤ byteVolume.chunkSize * Segment.maxSequence := by
    rw [hlength]
    decide
  obtain ⟨m, hrun, -, hfile⟩ := write_runOn (ready_fresh byteVolume true Timestamp.epoch) (by decide)
    (writable_fresh byteVolume true Timestamp.epoch "/f") rfl hfits
  have hwrite : (Operation.write "/f" 0 (.ofPieces [Payload.zeros 10000] none)).Leads byteVolume never
      (fresh "files" true Timestamp.epoch) m := ⟨_, outcome_never_iff.2 hrun⟩
  have hreached : byteVolume.Run (fun _ => never) (fun _ _ => True)
      (fresh "files" true Timestamp.epoch) m := .step (.start _) trivial hwrite
  have hproper : byteVolume.Proper m :=
    hreached.proper (laidOut_fresh byteVolume true Timestamp.epoch).toProper fun _ _ _ hcall => hcall
  have hsegments : ∀ i, i < 10000 → ∃ o, m.object? byteVolume.segmentsContainer
      (Segment.name (byteVolume.storeName "/f") (i + 1)) = some o := by
    intro i hi
    have hcontent : i * byteVolume.chunkSize < ((byteVolume.contentAt (fresh byteVolume.container true
        Timestamp.epoch) "/f").splice 0 (Source.ofPieces [Payload.zeros 10000] none).bytes).length := by
      rw [Bytes.length_splice, hlength]
      show i * 1 < _
      omega
    obtain ⟨o, ho, -⟩ := hfile.stores.object hcontent
    exact ⟨o, ho⟩
  obtain ⟨t, o, hremove, hleft⟩ := orphan_of_batches hproper rfl (by decide) hfile.object hsegments
    (Nat.le_refl _) (by decide)
  refine ⟨m, t, o, hreached, hremove, ?_⟩
  have hsegment : Segment.name (byteVolume.storeName "/f") 10000 = "f/0000000000010000" := by decide
  rwa [hsegment] at hleft

/-! ## Removals that report success -/

/-- Let a removal on a volume that is used without failures report success, whatever bulk deletes do. Then
no object is left at the path or below it; and no segment is left whose name lies below it, if and only
if each one that the bulk deletes have left belongs to a manifest that they have left there. -/
theorem removed_iff_noOrphans {options : VolumeOptions} {bulk : Bool} {now : Timestamp}
    (hcreate : (create options).runOn answer (MemoryStore.empty bulk now) = (.ok v, start))
    (hrun : v.Run (fun _ => never) (fun _ _ => True) start m) (hbulk : v.bulkDelete = true)
    (h : Outcome answerInPart (v.remove path).run m (.ok ()) t) :
    (∀ name, AtOrBelow (v.storeDirectory path) name → t.object? v.container name = none) ∧
    (∃ mid, v.RemovedThrough path m mid t) ∧
    ∀ mid, v.RemovedThrough path m mid t →
      ((∀ text, Text.startsWith text (below (v.storeDirectory path)) = true →
          t.object? v.segmentsContainer text = none) ↔ v.NoOrphans mid (v.storeDirectory path)) := by
  obtain rfl := create_ensures (.ok v) start (outcome_never_iff.2 hcreate)
  have hm : v.Proper m := hrun.proper (laidOut_fresh v bulk now).toProper fun _ _ _ hcall => hcall
  obtain ⟨mid, hmid⟩ := remove_inPart hm hbulk (.ok ()) t h
  exact ⟨(hmid.noOrphans_iff hm).1, ⟨mid, hmid⟩, fun mid hmid => (hmid.noOrphans_iff hm).2⟩

theorem removed_iff_noOrphans_of_ten_thousand : ∃ m t,
    Outcome answerInPart (byteVolume.remove "/f").run m (.ok ()) t ∧
    (∀ name, AtOrBelow "f" name → t.object? "files" name = none) ∧
    (∃ mid, byteVolume.RemovedThrough "/f" m mid t) ∧
    ∀ mid, byteVolume.RemovedThrough "/f" m mid t →
      ((∀ text, Text.startsWith text "f/" = true → t.object? "files_segments" text = none) ↔
        byteVolume.NoOrphans mid "f") := by
  obtain ⟨m, t, o, hreached, hremove, -⟩ := exists_orphan
  have hdirectory : byteVolume.storeDirectory "/f" = "f" := by decide
  have hiff := removed_iff_noOrphans create_byteVolume hreached rfl hremove
  rw [hdirectory] at hiff
  exact ⟨m, t, hremove, hiff⟩

/-- That a removal has taken away all segments below the path does not follow from its success. -/
theorem remove_leaves_orphan :
    ¬∀ m t, byteVolume.Run (fun _ => never) (fun _ _ => True) (fresh "files" true Timestamp.epoch) m →
      Outcome answerInPart (byteVolume.remove "/f").run m (.ok ()) t →
        ∀ text, Text.startsWith text "f/" = true → t.object? "files_segments" text = none := by
  intro hall
  obtain ⟨m, t, o, hreached, hremove, hleft⟩ := exists_orphan
  rw [hall m t hreached hremove "f/0000000000010000" (by decide)] at hleft
  cases hleft

end Volume

end SegmentedFiles
