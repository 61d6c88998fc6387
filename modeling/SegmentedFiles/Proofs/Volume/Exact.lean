import SegmentedFiles.Proofs.Store.Alike
import SegmentedFiles.Proofs.Volume.Orphans
import SegmentedFiles.Proofs.Volume.Owned

/-! # What a removal takes away, exactly

Bulk deletes find the segments of a tree by where their names start, single deletions by the manifests
that they belong to. Where each segment belongs to a manifest (`Owned`) both are the segments of the
objects of the tree, so the store is the same in either way (`remove_exact`). That each segment belongs
to a manifest is true after any run of operations of which no call fails (`Run.owned`). -/

namespace SegmentedFiles.Volume

open MemoryStore (answer Without Alike)
open VolumeAction

variable {v : Volume} {m t start : MemoryStore} {name path base text : String} {names : List String}
  {fails : StoreCall → Prop}

/-! ## Containers and settings -/

theorem frame_alike (v : Volume) : v.Frame Alike :=
  ⟨Alike.refl, Alike.trans, fun h hm => ⟨(h.containers _).2 hm.container, (h.containers _).2 hm.segments,
    h.putBudget.trans hm.putBudget⟩⟩

theorem deleteQuietly_alike (container : String) :
    v.KeepsTo Alike fails (deleteQuietly container name path) := by
  have hframe := v.frame_alike
  refine hframe.bind (hframe.call_try fun m _ => MemoryStore.alike_delete m _ _) ?_
  intro reply
  split
  · exact hframe.pure _
  · exact hframe.pure _
  · exact hframe.throw _

theorem removeSegments_alike (ref : ManifestRef) : v.KeepsTo Alike fails (removeSegments path ref) := by
  have hframe := v.frame_alike
  refine hframe.bind (hframe.call_try fun m _ => .refl m) ?_
  intro reply
  split
  · exact hframe.pure _
  · exact hframe.throw _
  · exact hframe.bind (hframe.forIn fun _ _ => deleteQuietly_alike _) fun _ => hframe.pure _

theorem removeObject_alike : v.KeepsTo Alike fails (v.removeObject name) := by
  have hframe := v.frame_alike
  refine hframe.bind (hframe.head_try _ _) ?_
  intro reply
  split
  · exact hframe.pure _
  · exact hframe.throw _
  dsimp only
  split
  · exact hframe.bind (removeSegments_alike _) fun _ => deleteQuietly_alike _
  · exact deleteQuietly_alike _

theorem removeInBulk_alike : v.KeepsTo Alike fails (v.removeInBulk path base names) := by
  have hframe := v.frame_alike
  refine hframe.bind (hframe.list_at _ _ path) ?_
  intro segments
  refine hframe.bind (hframe.forIn_value ?_) ?_
  · intro batch _ failed
    refine hframe.bind (hframe.call_at (fun m _ => MemoryStore.alike_bulkDelete m batch) path) ?_
    intro summary
    exact hframe.pure _
  · intro failed
    dsimp only
    split
    · exact hframe.throw _
    · exact hframe.pure _

/-- However a removal ends, the containers are still there and the settings are as they were. -/
theorem remove_alike (v : Volume) (fails : StoreCall → Prop) (path : String) : v.KeepsTo Alike fails (v.remove path) := by
  have hframe := v.frame_alike
  have hthen : ∀ (names : List String) (removed : Bool), v.KeepsTo Alike fails (do
      unless removed do
        for name in names do v.removeObject name) := by
    intro names removed
    cases removed with
    | true => exact hframe.pure _
    | false => exact hframe.bind (hframe.forIn fun _ _ => removeObject_alike) fun _ => hframe.pure _
  unfold remove checkPath
  split
  swap
  · exact hframe.throw _
  rw [pure_bind]
  refine hframe.bind (hframe.list_at _ _ path) ?_
  intro infos
  dsimp only
  split
  · exact hframe.throw _
  split
  · refine hframe.bind (hframe.tryCatch ?_ fun _ => hframe.pure _) fun removed => hthen _ removed
    exact hframe.bind removeInBulk_alike fun _ => hframe.pure _
  · exact hthen _ false

/-! ## The objects of a tree and their segments -/

/-- What a removal takes away: the objects at `base` and below it, and the segments of these. -/
def InTree (v : Volume) (base container text : String) : Prop :=
  container = v.container ∧ AtOrBelow base text ∨
    container = v.segmentsContainer ∧ ∃ name s, text = Segment.name name s ∧ AtOrBelow base name

theorem inTree_segment_iff {s : Nat} :
    v.InTree base v.segmentsContainer (Segment.name name s) ↔ AtOrBelow base name := by
  constructor
  · intro h
    rcases h with ⟨hc, -⟩ | ⟨-, other, s', hname, hother⟩
    · exact absurd hc v.segmentsContainer_ne
    · exact (Segment.name_inj hname).1 ▸ hother
  · intro h
    exact .inr ⟨rfl, name, s, rfl, h⟩

theorem inTree_object_iff : v.InTree base v.container name ↔ AtOrBelow base name := by
  constructor
  · intro h
    rcases h with ⟨-, hname⟩ | ⟨hc, -⟩
    · exact hname
    · exact absurd hc.symm v.segmentsContainer_ne
  · intro h
    exact .inl ⟨rfl, h⟩

/-- The targets of bulk deletes are what is in the tree. -/
theorem mem_bulkTargets_iff (hm : v.Owned m) {c n : String} {o : StoredObject}
    (ho : m.object? c n = some o) :
    ⟨c, n⟩ ∈ v.bulkTargets m base (v.treeNames m base) ↔ v.InTree base c n := by
  rw [bulkTargets, List.mem_append, List.mem_map, List.mem_map]
  constructor
  · intro h
    rcases h with ⟨name, hname, htarget⟩ | ⟨⟨text, o'⟩, hunder, htarget⟩
    · cases htarget
      exact inTree_object_iff.2 (mem_treeNames.1 hname).2
    · cases htarget
      obtain ⟨hobject, hstart⟩ := MemoryStore.mem_under.1 hunder
      obtain ⟨name, s, rfl, -⟩ := hm text o' hobject
      exact inTree_segment_iff.2 (startsWith_name_iff.1 hstart)
  · intro h
    rcases h with ⟨rfl, hname⟩ | ⟨rfl, name, s, rfl, hname⟩
    · exact .inl ⟨n, mem_treeNames.2 ⟨⟨o, ho⟩, hname⟩, rfl⟩
    · exact .inr ⟨_, MemoryStore.mem_under.2 ⟨ho, startsWith_name_iff.2 hname⟩, rfl⟩

/-- What single deletions find is what is in the tree. -/
theorem attached_iff (hown : v.OwnManifests m) (hm : v.Owned m) {c n : String} {o : StoredObject}
    (ho : m.object? c n = some o) :
    (∃ name ∈ v.treeNames m base, v.Attached m name c n) ↔ v.InTree base c n := by
  constructor
  · intro h
    obtain ⟨name, hname, hobject | ⟨-, hrefers⟩⟩ := h
    · obtain ⟨rfl, rfl⟩ := hobject
      exact inTree_object_iff.2 (mem_treeNames.1 hname).2
    · have hc : c = v.segmentsContainer := hrefers.1
      subst hc
      obtain ⟨other, s, rfl, ⟨o', ho', href⟩ | hfalse⟩ := hm n o ho
      · obtain rfl := hown.eq_of_refers ho' href hrefers
        exact inTree_segment_iff.2 (mem_treeNames.1 hname).2
      · exact hfalse.elim
  · intro h
    rcases h with ⟨rfl, hname⟩ | ⟨rfl, hsegment⟩
    · exact ⟨n, mem_treeNames.2 ⟨⟨o, ho⟩, hname⟩, attached_object_iff.2 rfl⟩
    · obtain ⟨name, s, rfl, hmanifest | hfalse⟩ := hm n o ho
      · obtain ⟨o', ho', href⟩ := hmanifest
        have hname := (inTree_segment_iff (v := v)).1 (.inr ⟨rfl, hsegment⟩)
        exact ⟨name, mem_treeNames.2 ⟨⟨o', ho'⟩, hname⟩, .inr ⟨⟨o', ho', href⟩, rfl,
          Segment.belongsTo_name⟩⟩
      · exact hfalse.elim

/-- Bulk deletes take the tree away. On a store that has none, the first one fails. -/
theorem removeInBulk_exact (hm : v.Proper m) (howned : v.Owned m) :
    Ensures (answer.mayFail never) (v.removeInBulk path base (v.treeNames m base)) m
      (fun _ t => Without (v.InTree base) m t) fun _ t => t = m := by
  have hbulk : Ensures (answer.mayFail never) (v.removeInBulk path base (v.treeNames m base)) m
      (fun _ t => 0 = 0 ∧ t.bulkDelete = m.bulkDelete ∧ (m.bulkDelete = false → t = m) ∧
        Without (fun c n => ⟨c, n⟩ ∈ v.bulkTargets m base (v.treeNames m base)) m t)
      fun _ t => t = m := by
    refine removeInBulk_ensures (fun done failed t => failed = 0 ∧ t.bulkDelete = m.bulkDelete ∧
      (m.bulkDelete = false → t = m) ∧ Without (fun c n => ⟨c, n⟩ ∈ done) m t) (singly_mayFail never)
      hm.ready ⟨rfl, rfl, fun _ => rfl, .refl fun _ _ h => absurd h List.not_mem_nil⟩ ?_
      (fun failed _ ht => absurd ht.1 (Nat.succ_ne_zero failed)) ?_
    swap
    · intro _
      rfl
    intro done batch failed s reply t _ _ hs hreply
    obtain ⟨rfl, hsame, hnone, hs⟩ := hs
    replace hreply := hreply.resolve_right fun hcall => hcall.1
    rcases MemoryStore.answer_bulkDelete (hs.bulkFault.trans hm.bulkFault) batch with
      ⟨hbulk, e, he⟩ | ⟨hbulk, summary, u, hu, herrors, hwithout⟩
    · rw [he] at hreply
      obtain ⟨rfl, rfl⟩ := Prod.mk.inj hreply
      exact hnone (hsame ▸ hbulk)
    · have halike := MemoryStore.alike_bulkDelete s batch
      rw [hu] at hreply halike
      obtain ⟨rfl, rfl⟩ := Prod.mk.inj hreply
      refine ⟨by rw [herrors]; rfl, halike.bulkDelete.trans hsame, ?_, hs.append hwithout⟩
      intro hno
      rw [hsame, hno] at hbulk
      cases hbulk
  exact hbulk.mono (fun _ _ ht => ht.2.2.2.congr fun _ _ _ => mem_bulkTargets_iff howned) fun _ _ ht => ht

theorem Proper.without {gone : String → String → Prop} (hm : v.Proper m) (h : Without gone m t) :
    v.Proper t :=
  ⟨hm.ready.without h, h.bulkFault.trans hm.bulkFault, hm.own.without h⟩

/-- A removal takes away exactly the tree, whether bulk deletes are used or not. -/
theorem remove_takes (path : String) (hm : v.Proper m) (howned : v.Owned m) :
    Ensures (answer.mayFail never) (v.remove path) m
      (fun _ t => v.treeNames m (v.storeDirectory path) ≠ [] ∧
        Without (v.InTree (v.storeDirectory path)) m t)
      fun e t => t = m ∧ ((Path.isBelowRoot path || path == "/") = true →
        v.treeNames m (v.storeDirectory path) = [] ∧ e = .pathNotFound path) := by
  refine remove_ensures (· = m) (singly_mayFail never) hm.ready.container (fun _ ⟨_, hcall⟩ => hcall.elim) ?_
    (fun hnothing => ⟨rfl, fun _ => ⟨hnothing, rfl⟩⟩) (fun _ => rfl) ?_ ?_
  · intro hinvalid
    refine ⟨rfl, fun hvalid => ?_⟩
    rw [hinvalid] at hvalid
    cases hvalid
  · intro _ hsome
    exact (removeInBulk_exact hm howned).mono (fun _ _ ht => ⟨hsome, ht⟩) fun _ _ ht => ht
  · intro hsome t ht
    subst ht
    refine (removeObjects_ensures (singly_mayFail never) hm.ready hm.own (fun _ _ h => h) _).mono ?_ ?_
    · intro _ u hu
      exact ⟨hsome, hu.congr fun _ _ _ => attached_iff hm.own howned⟩
    · intro _ u hu
      obtain ⟨⟨_, hcall⟩, -⟩ := hu
      exact hcall.elim

/-! ## Runs without failures -/

theorem Owned.without_tree (hm : v.Owned m) (h : Without (v.InTree base) m t) : v.Owned t := by
  intro text o ho
  obtain ⟨hthere, hkept⟩ := (h.object _ _ _).1 ho
  obtain ⟨name, s, rfl, ⟨o', ho', href⟩ | hfalse⟩ := hm text o hthere
  · rw [inTree_segment_iff, ← inTree_object_iff] at hkept
    exact ⟨name, s, rfl, .inl ⟨o', (h.object _ _ _).2 ⟨ho', hkept⟩, href⟩⟩
  · exact hfalse.elim

theorem Owned.leads {operation : Operation} (hm : v.Proper m) (howned : v.Owned m)
    (h : operation.Leads v never m t) : v.Owned t := by
  cases operation with
  | write path offset source =>
    obtain ⟨r, h⟩ := h
    exact write_owned hm.ready hm.own howned offset source r t h
  | writeAll path content =>
    obtain ⟨r, h⟩ := h
    exact (writeAll_owned path content hm.ready hm.own howned).state h
  | move source target =>
    obtain ⟨r, h⟩ := h
    exact (move_owned source target hm.ready hm.own howned).state h
  | remove path =>
    obtain ⟨r, h⟩ := h
    have hremove : Ensures (answer.mayFail never) (v.remove path) m (fun _ t => v.Owned t)
        fun _ t => v.Owned t :=
      (remove_takes path hm howned).mono (fun _ _ ht => howned.without_tree ht.2) fun _ _ ht =>
        ht.1 ▸ howned
    exact hremove.state h

/-- Operations of which no call fails leave no segment without its manifest. -/
theorem Run.owned {allowed : Operation → MemoryStore → Prop} (h : v.Run (fun _ => never) allowed m t)
    (hm : v.Proper m) (howned : v.Owned m) : v.Owned t := by
  induction h with
  | start => exact howned
  | wait now _ ih => exact ih
  | step hrun _ hstep ih =>
    exact ih.leads (hrun.proper hm fun _ _ _ hcall => hcall) hstep

theorem owned_fresh (v : Volume) (bulk : Bool) (now : Timestamp) :
    v.Owned (fresh v.container bulk now) := by
  intro text o ho
  rw [object?_fresh] at ho
  cases ho

/-! ## Removals after such a run -/

/-- From `m` to `t` the tree at `base` is felled: objects are left where they are neither at `base` nor
below it, segments where the manifest that they belong to is left, and nothing else has changed. -/
structure Felled (v : Volume) (base : String) (m t : MemoryStore) : Prop where
  alike : Alike m t
  object : ∀ name o, t.object? v.container name = some o ↔
    m.object? v.container name = some o ∧ ¬AtOrBelow base name
  segment : ∀ text o, t.object? v.segmentsContainer text = some o ↔
    m.object? v.segmentsContainer text = some o ∧
      ∃ name s, text = Segment.name name s ∧ v.HasManifest t name
  other : ∀ c n, c ≠ v.container → c ≠ v.segmentsContainer → t.object? c n = m.object? c n

theorem felled_of_without (hm : v.Owned m) (halike : Alike m t) (h : Without (v.InTree base) m t) :
    v.Felled base m t := by
  refine ⟨halike, fun name o => ?_, fun text o => ?_, fun c n hc hc' => h.same ?_⟩
  · rw [h.object, inTree_object_iff]
  · rw [h.object]
    refine and_congr_right fun ho => ?_
    obtain ⟨name, s, rfl, ⟨o', ho', href⟩ | hfalse⟩ := hm text o ho
    · rw [inTree_segment_iff]
      constructor
      · intro hname
        exact ⟨name, s, rfl, o', (h.object _ _ _).2 ⟨ho', mt inTree_object_iff.1 hname⟩, href⟩
      · intro hleft
        obtain ⟨other, s', hname, o', ho', -⟩ := hleft
        rw [(Segment.name_inj hname).1]
        exact mt inTree_object_iff.2 ((h.object _ _ _).1 ho').2
    · exact hfalse.elim
  · intro hin
    rcases hin with ⟨hsame, -⟩ | ⟨hsame, -⟩
    · exact hc hsame
    · exact hc' hsame

theorem treeNames_eq_nil_iff : v.treeNames m base = [] ↔
    ∀ name, AtOrBelow base name → m.object? v.container name = none := by
  rw [List.eq_nil_iff_forall_not_mem]
  refine forall_congr' fun name => ?_
  rw [mem_treeNames, not_and', Option.eq_none_iff_forall_ne_some, not_exists]

/-- How a removal ends if no call fails. -/
theorem remove_runOn (hm : v.Proper m) (howned : v.Owned m) (hpath : Path.isValid path = true) :
    (v.treeNames m (v.storeDirectory path) = [] ∧
      (v.remove path).runOn answer m = (.error (.pathNotFound path), m)) ∨
    v.treeNames m (v.storeDirectory path) ≠ [] ∧ ∃ t, (v.remove path).runOn answer m = (.ok (), t) ∧
      Alike m t ∧ Without (v.InTree (v.storeDirectory path)) m t := by
  have hvalid : (Path.isBelowRoot path || path == "/") = true := by rwa [Bool.or_comm]
  have hends := (remove_takes path hm howned).runOn
  have halike := ((v.remove_alike never path).ensures m).runOn
  split at hends
  · next t hrun =>
    rw [hrun] at halike
    exact .inr ⟨hends.1, t, hrun, halike hm.ready, hends.2⟩
  · next e t hrun =>
    obtain ⟨rfl, hfound⟩ := hends
    obtain ⟨hnothing, rfl⟩ := hfound hvalid
    exact .inl ⟨hnothing, hrun⟩

/-- Whatever operations have been done on a volume without failing calls, and whatever came of them, a
removal takes away the tree at the path and nothing else. If there is none, this is an error and nothing
changes. With bulk deletes and without the result is the same. -/
theorem remove_exact {options : VolumeOptions} {bulk : Bool} {now : Timestamp}
    (hcreate : (create options).runOn answer (MemoryStore.empty bulk now) = (.ok v, start))
    (hrun : v.Run (fun _ => never) (fun _ _ => True) start m) (hpath : Path.isValid path = true) :
    ((∀ name, AtOrBelow (v.storeDirectory path) name → m.object? v.container name = none) →
      ∀ uses, (remove { v with bulkDelete := uses } path).runOn answer m
        = (.error (.pathNotFound path), m)) ∧
    ((∃ name o, AtOrBelow (v.storeDirectory path) name ∧ m.object? v.container name = some o) →
      ∃ t, v.Felled (v.storeDirectory path) m t ∧ ∀ uses, ∃ calls,
        (remove { v with bulkDelete := uses } path).runOn answer m
          = (.ok (), { t with bulkDeleteCalls := calls })) := by
  obtain rfl := create_ensures (.ok v) start (outcome_never_iff.2 hcreate)
  have hfresh := (laidOut_fresh v bulk now).toProper
  have hm : v.Proper m := hrun.proper hfresh fun _ _ _ hcall => hcall
  have howned : v.Owned m := hrun.owned hfresh (owned_fresh v bulk now)
  have hends : ∀ uses, (v.treeNames m (v.storeDirectory path) = [] ∧
      (remove { v with bulkDelete := uses } path).runOn answer m = (.error (.pathNotFound path), m)) ∨
      v.treeNames m (v.storeDirectory path) ≠ [] ∧ ∃ t,
        (remove { v with bulkDelete := uses } path).runOn answer m = (.ok (), t) ∧
          Alike m t ∧ Without (v.InTree (v.storeDirectory path)) m t :=
    fun uses => remove_runOn (v := { v with bulkDelete := uses })
      ⟨⟨hm.ready.container, hm.ready.segments, hm.ready.putBudget⟩, hm.bulkFault, hm.own⟩ howned hpath
  constructor
  · intro hnothing uses
    rcases hends uses with ⟨-, hrun⟩ | ⟨hsome, -⟩
    · exact hrun
    · exact absurd (treeNames_eq_nil_iff.2 hnothing) hsome
  · intro hsome
    obtain ⟨name, o, hname, ho⟩ := hsome
    have hfound : ∀ uses, ∃ t, (remove { v with bulkDelete := uses } path).runOn answer m = (.ok (), t) ∧
        Alike m t ∧ Without (v.InTree (v.storeDirectory path)) m t := by
      intro uses
      rcases hends uses with ⟨hnothing, -⟩ | ⟨-, hrun⟩
      · rw [treeNames_eq_nil_iff.1 hnothing name hname] at ho
        cases ho
      · exact hrun
    obtain ⟨t, -, halike, ht⟩ := hfound false
    refine ⟨t, felled_of_without howned halike ht, fun uses => ?_⟩
    obtain ⟨u, hrun, halike', hu⟩ := hfound uses
    refine ⟨u.bulkDeleteCalls, ?_⟩
    rw [hrun, (halike.symm.trans halike').eq_of_object? fun c n => ?_]
    refine Option.ext fun o => ?_
    rw [hu.object, ht.object]

/-- A volume in which a file is written, which is then removed. -/
theorem remove_exact_of_write :
    ∃ m, sampleVolume.Run (fun _ => never) (fun _ _ => True) (fresh "files" true Timestamp.epoch) m ∧
      (∃ name o, AtOrBelow "f" name ∧ m.object? "files" name = some o) ∧
      ∃ t, sampleVolume.Felled "f" m t ∧ ∀ uses, ∃ calls,
        (remove { sampleVolume with bulkDelete := uses } "/f").runOn answer m
          = (.ok (), { t with bulkDeleteCalls := calls }) := by
  have hdirectory : sampleVolume.storeDirectory "/f" = "f" := by decide
  have hname : sampleVolume.storeName "/f" = "f" := by decide
  have hpath : Path.isValid "/f" = true := by decide
  have hfits : 7 + (Source.ofPieces [⟨#[1]⟩, ⟨#[2, 3]⟩] none).bytes.length
      ≤ sampleVolume.chunkSize * Segment.maxSequence := by decide
  obtain ⟨m, hrun, -, hfile⟩ := write_runOn (ready_fresh sampleVolume true Timestamp.epoch) (by decide)
    (writable_fresh sampleVolume true Timestamp.epoch "/f") rfl hfits
  have hwrite : (Operation.write "/f" 7 (.ofPieces [⟨#[1]⟩, ⟨#[2, 3]⟩] none)).Leads sampleVolume never
      (fresh "files" true Timestamp.epoch) m := ⟨_, outcome_never_iff.2 hrun⟩
  have hreached : sampleVolume.Run (fun _ => never) (fun _ _ => True)
      (fresh "files" true Timestamp.epoch) m := .step (.start _) trivial hwrite
  obtain ⟨o, ho, -⟩ := hfile.object
  rw [hname] at ho
  have hfound : ∃ name o, AtOrBelow "f" name ∧ m.object? "files" name = some o :=
    ⟨"f", o, .inr (.inl rfl), ho⟩
  have hexact := (remove_exact create_sampleVolume hreached hpath).2
  rw [hdirectory] at hexact
  exact ⟨m, hreached, hfound, hexact hfound⟩

end SegmentedFiles.Volume
