import SegmentedFiles.Proofs.Store.Without
import SegmentedFiles.Proofs.Volume.Frame

/-! # What is gone after a removal

A removal takes away the objects at a path and below it with the segments that belong to them: all in
bulk (`removeInBulk_ensures`), or one object after another (`removeObjects_ensures`). The conditions are
for any store that answers bulk deletes as it likes and other calls as the store in memory does, unless
they fail (`Volume.Singly`). -/

namespace SegmentedFiles.Volume

open MemoryStore (answer Without)
open VolumeAction

variable {v : Volume} {m t : MemoryStore} {name path base container text : String} {o : StoredObject}
  {ref : ManifestRef} {fails : StoreCall → Prop}
  {answers : (call : StoreCall) → MemoryStore → call.Reply → MemoryStore → Prop}

/-- Calls that are no bulk deletes are answered as by the store in memory, or fail. -/
def Singly (answers : (call : StoreCall) → MemoryStore → call.Reply → MemoryStore → Prop)
    (fails : StoreCall → Prop) : Prop :=
  ∀ call s reply t, (∀ targets, call ≠ .bulkDelete targets) → answers call s reply t →
    answer.mayFail fails call s reply t

theorem singly_mayFail (fails : StoreCall → Prop) : Singly (answer.mayFail fails) fails :=
  fun _ _ _ _ _ h => h

theorem Singly.head (h : Singly answers fails) (reply : (StoreCall.head container text).Reply)
    (t : MemoryStore) : answers (.head container text) m reply t →
      answer.mayFail fails (.head container text) m reply t :=
  h _ m reply t nofun

theorem Singly.list {options : ListOptions} (h : Singly answers fails)
    (reply : (StoreCall.list container options).Reply) (t : MemoryStore) :
    answers (.list container options) m reply t →
      answer.mayFail fails (.list container options) m reply t :=
  h _ m reply t nofun

theorem Singly.delete (h : Singly answers fails) (reply : (StoreCall.delete container text).Reply)
    (t : MemoryStore) : answers (.delete container text) m reply t →
      answer.mayFail fails (.delete container text) m reply t :=
  h _ m reply t nofun

theorem deleteQuietly_ensures {ok : Unit → MemoryStore → Prop} {fail : VolumeError → MemoryStore → Prop}
    (hanswers : Singly answers fails)
    (hsome : ∀ o, m.object? container text = some o → ok () (m.vacate container text))
    (hnone : m.object? container text = none → ok () m)
    (hfail : ∀ e, fails (.delete container text) → fail e m) :
    Ensures answers (deleteQuietly container text path) m ok fail := by
  obtain ⟨reply, t, hanswer, hreply, ht⟩ : ∃ reply t, answer (.delete container text) m = (reply, t) ∧
      (reply = .ok () ∨ reply = .error .notFound) ∧ ok () t := by
    cases ho : m.object? container text with
    | some o => exact ⟨_, _, MemoryStore.answer_delete_of_some ho, .inl rfl, hsome o ho⟩
    | none => exact ⟨_, _, MemoryStore.answer_delete_of_none ho, .inr rfl, hnone ho⟩
  refine ensures_try_bind_of_mayFail hanswers.delete hanswer ?_ ?_
  · rcases hreply with rfl | rfl
    · exact ensures_pure ht
    · exact ensures_pure ht
  · intro e he hcall
    split
    · next heq => cases heq
    · next heq => exact absurd (Except.error.inj heq) he
    · exact ensures_throw (hfail _ hcall)

/-- The object is gone, and nothing else has changed. -/
theorem deleteQuietly_without (hanswers : Singly answers fails) (container text path : String) :
    Ensures answers (deleteQuietly container text path) m
      (fun _ t => Without (fun c n => c = container ∧ n = text) m t)
      fun _ t => t = m ∧ fails (.delete container text) := by
  refine deleteQuietly_ensures hanswers ?_ ?_ fun _ hcall => ⟨rfl, hcall⟩
  · intro o _
    exact .vacate m container text
  · intro hnone
    refine .refl ?_
    intro c n h
    rw [h.1, h.2, hnone]

/-! ## The segments of a manifest -/

theorem Ready.without {gone : String → String → Prop} (hm : v.Ready m) (h : Without gone m t) :
    v.Ready t :=
  ⟨h.containers _ hm.container, h.containers _ hm.segments, h.putBudget.trans hm.putBudget⟩

theorem OwnManifests.without {gone : String → String → Prop} (hm : v.OwnManifests m)
    (h : Without gone m t) : v.OwnManifests t :=
  fun name o ref ho => hm name o ref ((h.object _ _ _).1 ho).1

/-- A manifest refers to this place. -/
def Refers (ref : ManifestRef) (container text : String) : Prop :=
  container = ref.container ∧ Segment.belongsTo ref text = true

/-- The names that a listing of a container shows. -/
def Listed (container : String) (infos : List ObjectInfo) (c n : String) : Prop :=
  c = container ∧ n ∈ infos.map ObjectInfo.name

/-- What a listing shows is deleted, one name after another. -/
theorem deleteListed_ensures (hanswers : Singly answers fails) (container : String)
    (infos : List ObjectInfo) :
    Ensures answers (do for info in infos do deleteQuietly container info.name info.name) m
      (fun _ t => Without (Listed container infos) m t)
      fun _ t => (∃ c n, fails (.delete c n)) ∧
        ∃ done, done <+: infos ∧ Without (Listed container done) m t := by
  refine (ensures_forIn (fun rest t => ∃ done, infos = done ++ rest ∧
    Without (Listed container done) m t) ⟨[], rfl, .refl fun _ _ h => absurd h.2 (by simp)⟩ ?_).bind ?_
  · intro info rest t ht
    obtain ⟨done, hdone, ht⟩ := ht
    refine Ensures.yield ((deleteQuietly_without hanswers container info.name info.name).mono ?_ ?_)
    · intro _ u hu
      refine ⟨done ++ [info], by rw [hdone, List.append_assoc]; rfl, (ht.trans hu).congr ?_⟩
      intro c n o _
      rw [Listed, Listed, List.map_append, List.mem_append, and_or_left]
      simp
    · intro _ u hu
      obtain ⟨rfl, hcall⟩ := hu
      exact ⟨⟨_, _, hcall⟩, done, ⟨_, hdone.symm⟩, ht⟩
  · intro _ t ht
    obtain ⟨done, hdone, ht⟩ := ht
    rw [List.append_nil] at hdone
    exact ensures_pure (hdone ▸ ht)

/-- Everything that a manifest refers to is deleted. Where this fails a part of it may be gone, but only
if a deletion failed. -/
theorem removeSegments_ensures (hanswers : Singly answers fails) (hm : ref.container ∈ m.containers) :
    Ensures answers (removeSegments path ref) m (fun _ t => Without (Refers ref) m t)
      fun _ t => (t = m ∧ (∃ call, fails call) ∨ ∃ c n, fails (.delete c n)) ∧
        ∃ gone, (∀ c n, gone c n → Refers ref c n) ∧ Without gone m t := by
  have hnothing : ∃ gone, (∀ c n, gone c n → Refers ref c n) ∧ Without gone m m :=
    ⟨_, fun _ _ => False.elim, .nothing m⟩
  refine ensures_try_bind_of_mayFail hanswers.list (MemoryStore.answer_list_all hm) ?_ ?_
  · dsimp only
    generalize hinfos : ((m.under ref.container ref.start).map fun object =>
      object.2.entry object.1).filter (fun info => Segment.belongsTo ref info.name) = infos
    have hmem : ∀ n o, m.object? ref.container n = some o →
        (n ∈ infos.map ObjectInfo.name ↔ Segment.belongsTo ref n = true) := by
      intro n o ho
      rw [← hinfos, List.filter_map, List.map_map, List.mem_map]
      constructor
      · intro h
        obtain ⟨object, hobject, rfl⟩ := h
        exact (List.mem_filter.1 hobject).2
      · intro hn
        refine ⟨(n, o), List.mem_filter.2 ⟨MemoryStore.mem_under.2 ⟨ho, ?_⟩, hn⟩, rfl⟩
        exact Segment.startsWith_of_belongsTo hn
    refine (deleteListed_ensures hanswers ref.container infos).mono ?_ ?_
    · intro _ t ht
      refine ht.congr ?_
      intro c n o ho
      refine and_congr_right fun hc => ?_
      exact hmem n o (hc ▸ ho)
    · intro _ t ht
      obtain ⟨hcall, done, hdone, ht⟩ := ht
      refine ⟨.inr hcall, fun c n => Refers ref c n ∧ Listed ref.container done c n, fun _ _ h => h.1,
        ht.congr fun c n o ho => ⟨fun h => ⟨⟨h.1, ?_⟩, h⟩, And.right⟩⟩
      exact (hmem n o (h.1 ▸ ho)).1 ((hdone.map _).subset h.2)
  · intro e he hcall
    split
    · next heq => exact absurd (Except.error.inj heq) he
    · exact ensures_throw ⟨.inl ⟨rfl, _, hcall⟩, hnothing⟩
    · next heq => cases heq

/-! ## One object after another -/

/-- What is deleted with the object called `name`: the object and what its manifest refers to. -/
def Attached (v : Volume) (m : MemoryStore) (name container text : String) : Prop :=
  container = v.container ∧ text = name ∨
    v.HasManifest m name ∧ Refers (v.manifestRef name) container text

theorem attached_object_iff : v.Attached m name v.container text ↔ text = name := by
  constructor
  · intro h
    rcases h with h | h
    · exact h.2
    · exact absurd h.2.1.symm v.segmentsContainer_ne
  · intro h
    exact .inl ⟨rfl, h⟩

/-- Nothing is deleted with an object that is not there. -/
theorem not_attached_of_absent (h : m.object? v.container name = none)
    (hattached : v.Attached m name container text) : m.object? container text = none := by
  rcases hattached with hobject | hrefers
  · rw [hobject.1, hobject.2, h]
  · obtain ⟨⟨o, ho, -⟩, -⟩ := hrefers
    rw [h] at ho
    cases ho

/-- What the manifest of an object refers to is deleted, if it has one. -/
theorem removeAttached_ensures {rest : VolumeAction Unit} {ok fail : MemoryStore → Prop}
    (hanswers : Singly answers fails) (hm : v.Ready m) (hown : v.OwnManifests m)
    (hdelete : ∀ c n, ¬fails (.delete c n)) (ho : m.object? v.container name = some o)
    (hfail : (∃ call, fails call) → fail m)
    (hrest : ∀ t, Without (fun c n => v.HasManifest m name ∧ Refers (v.manifestRef name) c n) m t →
      Ensures answers rest t (fun _ u => ok u) fun _ u => fail u) :
    Ensures answers (do
        if let some manifest := o.manifest then
          removeSegments path manifest
        rest) m (fun _ t => ok t) fun _ t => fail t := by
  cases hmanifest : o.manifest with
  | none =>
    refine hrest m (.refl ?_)
    intro c n h
    obtain ⟨⟨o', ho', hmanifest'⟩, -⟩ := h
    rw [ho] at ho'
    cases ho'
    rw [hmanifest] at hmanifest'
    cases hmanifest'
  | some ref =>
    obtain ⟨rfl, -⟩ := hown name o ref ho hmanifest
    refine (removeSegments_ensures hanswers hm.segments).bind_mono ?_ ?_
    · intro _ t ht
      obtain ⟨rfl, hcall⟩ := ht.1.resolve_right fun ⟨c, n, hcall⟩ => hdelete c n hcall
      exact hfail hcall
    · intro _ u hu
      refine hrest u (hu.congr ?_)
      intro c n _ _
      exact (and_iff_right ⟨o, ho, hmanifest⟩).symm

/-- An object is deleted with its segments. Where deletions do not fail, a failure changes nothing. -/
theorem removeObject_ensures (hanswers : Singly answers fails) (hm : v.Ready m)
    (hown : v.OwnManifests m) (hdelete : ∀ c n, ¬fails (.delete c n)) :
    Ensures answers (v.removeObject name) m (fun _ t => Without (v.Attached m name) m t)
      fun _ t => t = m ∧ ∃ call, fails call := by
  unfold removeObject
  dsimp only
  cases ho : m.object? v.container name with
  | none =>
    refine ensures_try_bind_of_mayFail hanswers.head (MemoryStore.answer_head_of_none ho) ?_ ?_
    · exact ensures_pure (.refl fun _ _ => not_attached_of_absent ho)
    · intro e he hcall
      split
      · next heq => exact absurd (Except.error.inj heq) he
      · exact ensures_throw ⟨rfl, _, hcall⟩
      · next heq => cases heq
  | some o =>
    refine ensures_try_bind_of_mayFail hanswers.head (MemoryStore.answer_head_of_some ho) ?_ ?_
    · dsimp only [StoredObject.info]
      refine removeAttached_ensures hanswers hm hown hdelete ho ?_ ?_
      · intro hcall
        exact ⟨rfl, hcall⟩
      · intro u hu
        refine (deleteQuietly_without hanswers v.container name (v.logicalPath name)).mono ?_ ?_
        · intro _ t ht
          exact (hu.trans ht).congr fun c n _ _ => or_comm
        · intro _ _ ht
          exact absurd ht.2 (hdelete _ _)
    · intro e he hcall
      split
      · next heq => exact absurd (Except.error.inj heq) he
      · exact ensures_throw ⟨rfl, _, hcall⟩
      · next heq => cases heq

/-- Objects are deleted with their segments one after another, up to a failure. -/
theorem removeObjects_ensures (hanswers : Singly answers fails) (hm : v.Ready m)
    (hown : v.OwnManifests m) (hdelete : ∀ c n, ¬fails (.delete c n)) (names : List String) :
    Ensures answers (do for name in names do v.removeObject name) m
      (fun _ t => Without (fun c n => ∃ name ∈ names, v.Attached m name c n) m t)
      fun _ t => (∃ call, fails call) ∧
        ∃ done : List String, Without (fun c n => ∃ name ∈ done, v.Attached m name c n) m t := by
  refine (ensures_forIn (fun rest t => ∃ done, names = done ++ rest ∧
    Without (fun c n => ∃ name ∈ done, v.Attached m name c n) m t)
    ⟨[], rfl, .refl fun _ _ h => by simp at h⟩ ?_).bind ?_
  · intro name rest t ht
    obtain ⟨done, hdone, ht⟩ := ht
    refine Ensures.yield
      ((removeObject_ensures hanswers (hm.without ht) (hown.without ht) hdelete).mono ?_ ?_)
    · intro _ u hu
      refine ⟨done ++ [name], by rw [hdone, List.append_assoc]; rfl, (ht.trans hu).congr ?_⟩
      intro c n _ _
      -- Its manifest is still there, unless the object has been deleted already.
      have hmanifest : v.HasManifest t name ↔ v.HasManifest m name ∧ name ∉ done := by
        simp only [HasManifest, ht.object, attached_object_iff]
        constructor
        · intro h
          obtain ⟨o, ⟨ho, hnot⟩, href⟩ := h
          exact ⟨⟨o, ho, href⟩, fun hmem => hnot ⟨name, hmem, rfl⟩⟩
        · intro h
          obtain ⟨⟨o, ho, href⟩, hnot⟩ := h
          exact ⟨o, ⟨ho, fun ⟨_, hmem, hname⟩ => hnot (hname ▸ hmem)⟩, href⟩
      simp only [List.mem_append, List.mem_singleton, or_and_right, exists_or, exists_eq_left]
      refine or_congr_right' fun hnot => or_congr_right ⟨?_, ?_⟩
      · intro h
        exact ⟨(hmanifest.1 h.1).1, h.2⟩
      · intro h
        exact ⟨hmanifest.2 ⟨h.1, fun hmem => hnot ⟨name, hmem, .inr h⟩⟩, h.2⟩
    · intro _ u hu
      obtain ⟨rfl, hcall⟩ := hu
      exact ⟨hcall, done, ht⟩
  · intro _ t ht
    obtain ⟨done, hdone, ht⟩ := ht
    rw [List.append_nil] at hdone
    exact ensures_pure (hdone ▸ ht)

/-! ## All in bulk -/

/-- Cut into batches, a list is still the same. -/
theorem flatten_batches {α : Type} {size : Nat} (hsize : 0 < size) (xs : List α) :
    (batches size xs).flatten = xs := by
  have hgo : ∀ fuel (xs : List α), xs.length ≤ fuel → (batches.go size fuel xs).flatten = xs := by
    intro fuel
    induction fuel with
    | zero =>
      intro xs hxs
      rw [List.eq_nil_of_length_eq_zero (Nat.le_zero.1 hxs)]
      rfl
    | succ fuel ih =>
      intro xs hxs
      unfold batches.go
      split
      · next hempty =>
        rw [List.isEmpty_iff.1 hempty]
        rfl
      · rw [List.flatten_cons, ih _ (by rw [List.length_drop]; omega), List.take_append_drop]
  exact hgo _ xs (Nat.le_refl _)

theorem length_le_of_mem_batches {α : Type} {size : Nat} {xs batch : List α}
    (h : batch ∈ batches size xs) : batch.length ≤ size := by
  have hgo : ∀ fuel (xs : List α), batch ∈ batches.go size fuel xs → batch.length ≤ size := by
    intro fuel
    induction fuel with
    | zero =>
      intro xs hmem
      cases hmem
    | succ fuel ih =>
      intro xs hmem
      unfold batches.go at hmem
      split at hmem
      · cases hmem
      · rcases List.mem_cons.1 hmem with rfl | hmem
        · exact List.length_take_le _ _
        · exact ih _ hmem
  exact hgo _ xs h

/-- How the names below `base` start. Below the empty name are all names. -/
def below (base : String) : String := if base.isEmpty then "" else base ++ "/"

/-- The targets of bulk deletes: objects first, then all segments below `base`. -/
def bulkTargets (v : Volume) (m : MemoryStore) (base : String) (names : List String) :
    List ObjectTarget :=
  names.map (ObjectTarget.mk v.container) ++
    (m.under v.segmentsContainer (below base)).map fun object =>
      ObjectTarget.mk v.segmentsContainer object.1

/-- Batches of the targets are deleted one after another. `inv` is about the targets of the batches so
far and the number of failures that these have told of. -/
theorem removeInBulk_ensures {names : List String} (inv : List ObjectTarget → Nat → MemoryStore → Prop)
    {fail : MemoryStore → Prop} (hanswers : Singly answers fails) (hm : v.Ready m)
    (hinit : inv [] 0 m)
    (hstep : ∀ done batch failed s reply t, done ++ batch <+: v.bulkTargets m base names →
      batch.length ≤ bulkDeleteBatch → inv done failed s → answers (.bulkDelete batch) s reply t →
        match reply with
        | .ok summary => inv (done ++ batch) (failed + summary.errors.length) t
        | .error _ => fail t)
    (hfail : ∀ failed t, inv (v.bulkTargets m base names) (failed + 1) t → fail t)
    (hlist : (∃ call, fails call) → fail m) :
    Ensures answers (v.removeInBulk path base names) m
      (fun _ t => inv (v.bulkTargets m base names) 0 t) fun _ t => fail t := by
  refine ensures_at_bind_of_mayFail hanswers.list (MemoryStore.answer_list_all hm.segments) ?_
    fun _ hcall => hlist ⟨_, hcall⟩
  have htargets : names.map (ObjectTarget.mk v.container) ++
      ((m.under v.segmentsContainer (below base)).map fun object =>
        object.2.entry object.1).map (fun info => ObjectTarget.mk v.segmentsContainer info.name)
      = v.bulkTargets m base names := by
    rw [List.map_map]
    rfl
  dsimp only
  rw [← below, htargets]
  refine (ensures_forIn_value (fun rest failed t => (∀ batch ∈ rest, batch.length ≤ bulkDeleteBatch) ∧
    ∃ done, done ++ rest.flatten = v.bulkTargets m base names ∧ inv done failed t)
    ⟨fun _ => length_le_of_mem_batches, [], flatten_batches (by decide) _, hinit⟩ ?_).bind ?_
  · intro batch rest failed s hs
    obtain ⟨hlength, done, hdone, hs⟩ := hs
    rw [List.flatten_cons, ← List.append_assoc] at hdone
    have hcall : Ensures answers ((StoreCall.bulkDelete batch).at path) s
        (fun summary t => inv (done ++ batch) (failed + summary.errors.length) t)
        fun _ t => fail t := by
      refine ensures_at ?_
      intro reply t hreply
      have hend := hstep done batch failed s reply t ⟨_, hdone⟩ (hlength batch List.mem_cons_self) hs
        hreply
      cases reply with
      | ok summary => exact hend
      | error e => exact hend
    refine hcall.bind ?_
    intro summary t ht
    exact ensures_pure ⟨_, rfl, fun b hb => hlength b (List.mem_cons_of_mem batch hb), done ++ batch,
      hdone, ht⟩
  · intro failed t ht
    obtain ⟨-, done, hdone, ht⟩ := ht
    rw [List.flatten_nil, List.append_nil] at hdone
    subst hdone
    cases failed with
    | zero => exact ensures_pure ht
    | succ failed => exact ensures_throw (hfail failed t ht)

/-! ## The whole removal -/

/-- Whether an object lies at `base` or below it. Everything lies below the empty name. -/
def AtOrBelow (base name : String) : Prop :=
  base.isEmpty = true ∨ name = base ∨ Text.startsWith name (base ++ "/") = true

/-- What starts as the segments of an object lies below `base` if the object is there or below. -/
theorem startsWith_start_iff :
    Text.startsWith (Segment.start name) (below base) = true ↔ AtOrBelow base name := by
  unfold below AtOrBelow
  split
  · next hempty => exact iff_of_true (Text.startsWith_iff.2 List.nil_prefix) (.inl hempty)
  · next hbase =>
    rw [or_iff_right hbase, eq_comm (a := name)]
    exact Segment.startsWith_start_iff

/-- It is the objects at `base` and below it that have segments below `base`. -/
theorem startsWith_name_iff {s : Nat} :
    Text.startsWith (Segment.name name s) (below base) = true ↔ AtOrBelow base name := by
  rw [← startsWith_start_iff]
  unfold below
  split
  · exact iff_of_true (Text.startsWith_iff.2 List.nil_prefix) (Text.startsWith_iff.2 List.nil_prefix)
  · exact Segment.startsWith_name_iff

/-- The names of the objects at `base` and below it. -/
def treeNames (v : Volume) (m : MemoryStore) (base : String) : List String :=
  ((m.under v.container base).map Prod.fst).filter fun name =>
    base.isEmpty || name == base || Text.startsWith name (base ++ "/")

theorem mem_treeNames : name ∈ v.treeNames m base ↔
    (∃ o, m.object? v.container name = some o) ∧ AtOrBelow base name := by
  have htree : (base.isEmpty || name == base || Text.startsWith name (base ++ "/")) = true ↔
      AtOrBelow base name := by
    rw [Bool.or_eq_true, Bool.or_eq_true, beq_iff_eq, or_assoc]
    rfl
  rw [treeNames, List.mem_filter, htree, List.mem_map]
  refine and_congr_left fun hname => ?_
  constructor
  · intro h
    obtain ⟨⟨n, o⟩, hmem, rfl⟩ := h
    exact ⟨o, (MemoryStore.mem_under.1 hmem).1⟩
  · intro h
    obtain ⟨o, ho⟩ := h
    refine ⟨(name, o), MemoryStore.mem_under.2 ⟨ho, ?_⟩, rfl⟩
    rw [Text.startsWith_iff]
    rcases hname with hempty | rfl | hbelow
    · rw [String.isEmpty_iff.1 hempty]
      exact List.nil_prefix
    · exact List.prefix_rfl
    · rw [Text.startsWith_iff, String.toList_append] at hbelow
      exact (List.prefix_append _ _).trans hbelow

/-- A removal is done in bulk or, from where that has ended, by one object after another. Where nothing
is at the path or below it, this is an error. -/
theorem remove_ensures (part : MemoryStore → Prop) {ok : MemoryStore → Prop}
    {fail : VolumeError → MemoryStore → Prop} (hanswers : Singly answers fails)
    (hm : v.container ∈ m.containers) (hcall : ∀ e, (∃ call, fails call) → fail e m)
    (hpath : (Path.isBelowRoot path || path == "/") = false → fail (.invalidPath path) m)
    (hnothing : v.treeNames m (v.storeDirectory path) = [] → fail (.pathNotFound path) m)
    (hpart : v.bulkDelete = false → part m)
    (hbulk : v.bulkDelete = true → v.treeNames m (v.storeDirectory path) ≠ [] →
      Ensures answers (v.removeInBulk path (v.storeDirectory path)
        (v.treeNames m (v.storeDirectory path))) m (fun _ t => ok t) fun _ t => part t)
    (hsingly : v.treeNames m (v.storeDirectory path) ≠ [] → ∀ t, part t → Ensures answers
      (do for name in v.treeNames m (v.storeDirectory path) do v.removeObject name) t
        (fun _ u => ok u) fail) :
    Ensures answers (v.remove path) m (fun _ t => ok t) fail := by
  unfold remove checkPath
  rw [Bool.true_and]
  split
  swap
  · next hinvalid => exact ensures_throw (hpath (by simpa using hinvalid))
  · rw [pure_bind]
    refine ensures_at_bind_of_mayFail hanswers.list (MemoryStore.answer_list_all hm) ?_
      fun e he => hcall e ⟨_, he⟩
    have hnames : (((m.under v.container (v.storeDirectory path)).map fun object =>
        object.2.entry object.1).map ObjectInfo.name).filter (fun name =>
          (v.storeDirectory path).isEmpty || name == v.storeDirectory path ||
            Text.startsWith name (v.storeDirectory path ++ "/"))
        = v.treeNames m (v.storeDirectory path) := by
      rw [List.map_map]
      rfl
    dsimp only
    rw [hnames]
    split
    · next hempty => exact ensures_throw (hnothing (List.isEmpty_iff.1 hempty))
    next hsome =>
    replace hsome : v.treeNames m (v.storeDirectory path) ≠ [] :=
      fun h => hsome (List.isEmpty_iff.2 h)
    have hthen : ∀ removed t, (if removed = true then ok t else part t) →
        Ensures answers (unless removed do
          for name in v.treeNames m (v.storeDirectory path) do v.removeObject name) t
            (fun _ u => ok u) fail := by
      intro removed t ht
      cases removed with
      | true => exact ensures_pure ht
      | false => exact hsingly hsome t ht
    split
    · next husesBulk =>
      replace hbulk := hbulk husesBulk hsome
      have htried : Ensures answers (try
            v.removeInBulk path (v.storeDirectory path) (v.treeNames m (v.storeDirectory path))
            pure true
          catch _ => pure false) m
          (fun removed t => if removed = true then ok t else part t) fail :=
        ensures_tryCatch (hbulk.bind fun _ _ ht => ensures_pure ht) fun _ _ ht => ensures_pure ht
      exact htried.bind hthen
    · next hbulk => exact hthen false m (hpart (by simpa using hbulk))

end SegmentedFiles.Volume
