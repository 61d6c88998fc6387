import SegmentedFiles.Proofs.Volume.Path
import SegmentedFiles.Proofs.Volume.Steps

/-! # What an operation on a file leaves alone

`Volume.Confined` says that nothing is changed but the object of one file and the segments of that, and
that directories may have been made where there was nothing; `Volume.SegmentsChanged` says that not even
the object is changed. Both hold of operations that follow one another if they hold of each
(`Volume.Frame`), so they are found from the calls that an operation makes. -/

namespace SegmentedFiles

/-- An object that stands for a directory. -/
structure StoredObject.IsDirectory (object : StoredObject) : Prop where
  contentType : object.contentType = Volume.directoryType
  manifest : object.manifest = none

namespace Volume

open MemoryStore (answer)
open VolumeAction

variable {v : Volume} {m t u : MemoryStore} {name path container text : String} {o : StoredObject}
  {fails : StoreCall → Prop}

theorem segmentsContainer_ne (v : Volume) : v.segmentsContainer ≠ v.container := by
  intro h
  have hlength := congrArg (fun text => text.toList.length) h
  simp [segmentsContainer, Segment.containerOf] at hlength

/-- Both containers are there, and the number of writes is not limited. -/
structure Ready (v : Volume) (m : MemoryStore) : Prop where
  container : v.container ∈ m.containers
  segments : v.segmentsContainer ∈ m.containers
  putBudget : m.putBudget = none

/-- The object called `name` is a manifest of the volume. -/
def HasManifest (v : Volume) (m : MemoryStore) (name : String) : Prop :=
  ∃ o, m.object? v.container name = some o ∧ o.manifest = some (v.manifestRef name)

/-- All manifests refer to the segments of their own names, which do not end with a slash. -/
def OwnManifests (v : Volume) (m : MemoryStore) : Prop :=
  ∀ name o ref, m.object? v.container name = some o → o.manifest = some ref →
    ref = v.manifestRef name ∧ name.toList.getLast? ≠ some '/'

/-- A manifest that is found under a name is of that name. -/
theorem OwnManifests.found_eq (hm : v.OwnManifests m) (ref : ManifestRef)
    (href : (m.object? v.container name).bind StoredObject.manifest = some ref) :
    ref = v.manifestRef name := by
  obtain ⟨o, ho, href⟩ := Option.bind_eq_some_iff.1 href
  exact (hm name o ref ho href).1

theorem OwnManifests.isSome_found_iff (hm : v.OwnManifests m) :
    ((m.object? v.container name).bind StoredObject.manifest).isSome = true ↔ v.HasManifest m name := by
  rw [Option.isSome_iff_exists]
  constructor
  · intro h
    obtain ⟨ref, href⟩ := h
    obtain ⟨o, ho, href⟩ := Option.bind_eq_some_iff.1 href
    exact ⟨o, ho, (hm name o ref ho href).1 ▸ href⟩
  · intro h
    obtain ⟨o, ho, href⟩ := h
    exact ⟨_, Option.bind_eq_some_iff.2 ⟨o, ho, href⟩⟩

/-- The places of the file called `name`: its object and the segments of that. -/
def Owns (v : Volume) (name container text : String) : Prop :=
  container = v.container ∧ text = name ∨
    container = v.segmentsContainer ∧ ∃ s, text = Segment.name name s

theorem owns_object (v : Volume) (name : String) : v.Owns name v.container name :=
  .inl ⟨rfl, rfl⟩

theorem owns_segment (v : Volume) (name : String) (s : Nat) :
    v.Owns name v.segmentsContainer (Segment.name name s) :=
  .inr ⟨rfl, s, rfl⟩

/-- From `m` to `t` nothing is changed but the file called `name`. Directories may have been made. -/
structure Confined (v : Volume) (name : String) (m t : MemoryStore) : Prop where
  containers : ∀ container ∈ m.containers, container ∈ t.containers
  putBudget : t.putBudget = m.putBudget
  bulkFault : t.bulkFault = m.bulkFault
  object : ∀ container text, ¬v.Owns name container text →
    t.object? container text = m.object? container text ∨
      container = v.container ∧ m.object? container text = none ∧
        ∃ o, t.object? container text = some o ∧ o.IsDirectory

namespace Confined

theorem refl (v : Volume) (name : String) (m : MemoryStore) : v.Confined name m m :=
  ⟨fun _ h => h, rfl, rfl, fun _ _ _ => .inl rfl⟩

theorem trans (h : v.Confined name m t) (h' : v.Confined name t u) : v.Confined name m u := by
  refine ⟨fun c hc => h'.containers c (h.containers c hc), h'.putBudget.trans h.putBudget,
    h'.bulkFault.trans h.bulkFault, ?_⟩
  intro c text howns
  rcases h.object c text howns with hmt | ⟨hc, hm, o, ho, hdir⟩
  · rcases h'.object c text howns with htu | ⟨hc, ht, hu⟩
    · exact .inl (htu.trans hmt)
    · exact .inr ⟨hc, hmt ▸ ht, hu⟩
  · rcases h'.object c text howns with htu | ⟨-, ht, -⟩
    · exact .inr ⟨hc, hm, o, htu.trans ho, hdir⟩
    · rw [ho] at ht
      cases ht

theorem ready (h : v.Confined name m t) (hm : v.Ready m) : v.Ready t :=
  ⟨h.containers _ hm.container, h.containers _ hm.segments, h.putBudget.trans hm.putBudget⟩

theorem place (howns : v.Owns name container text) :
    v.Confined name m (m.place container text o) := by
  refine ⟨fun _ => MemoryStore.mem_containers_place, rfl, rfl, fun c text' hnot => .inl ?_⟩
  refine MemoryStore.object?_place_of_ne ?_
  intro h
  obtain ⟨rfl, rfl⟩ := h
  exact hnot howns

theorem vacate (howns : v.Owns name container text) :
    v.Confined name m (m.vacate container text) := by
  refine ⟨fun _ => MemoryStore.mem_containers_vacate, rfl, rfl, fun c text' hnot => .inl ?_⟩
  refine MemoryStore.object?_vacate_of_ne ?_
  intro h
  obtain ⟨rfl, rfl⟩ := h
  exact hnot howns

/-- The segments of other objects are as they were. -/
theorem segment (h : v.Confined name m t) (hne : ∀ s, text ≠ Segment.name name s) :
    t.object? v.segmentsContainer text = m.object? v.segmentsContainer text := by
  refine (h.object v.segmentsContainer text ?_).resolve_right fun hdir =>
    v.segmentsContainer_ne hdir.1
  intro h
  rcases h with ⟨hc, -⟩ | ⟨-, s, hs⟩
  · exact v.segmentsContainer_ne hc
  · exact hne s hs

/-- Other objects are as they were, or are new directories. -/
theorem file (h : v.Confined name m t) (hne : text ≠ name) :
    t.object? v.container text = m.object? v.container text ∨
      m.object? v.container text = none ∧
        ∃ o, t.object? v.container text = some o ∧ o.IsDirectory := by
  refine (h.object v.container text ?_).imp_right fun hdir => hdir.2
  intro h
  rcases h with ⟨-, htext⟩ | ⟨hc, -⟩
  · exact hne htext
  · exact v.segmentsContainer_ne hc.symm

end Confined

/-- From `m` to `t` nothing is changed but the segments of the file called `name`. -/
structure SegmentsChanged (v : Volume) (name : String) (m t : MemoryStore) : Prop
    extends v.Confined name m t where
  file : t.object? v.container name = m.object? v.container name

namespace SegmentsChanged

theorem refl (v : Volume) (name : String) (m : MemoryStore) : v.SegmentsChanged name m m :=
  ⟨.refl v name m, rfl⟩

theorem trans {u : MemoryStore} (h : v.SegmentsChanged name m t) (h' : v.SegmentsChanged name t u) :
    v.SegmentsChanged name m u :=
  ⟨h.toConfined.trans h'.toConfined, h'.file.trans h.file⟩

theorem place (v : Volume) (name : String) (m : MemoryStore) (s : Nat) (o : StoredObject) :
    v.SegmentsChanged name m (m.place v.segmentsContainer (Segment.name name s) o) :=
  ⟨.place (v.owns_segment name s),
    MemoryStore.object?_place_of_ne fun h => v.segmentsContainer_ne h.1.symm⟩

theorem vacate (v : Volume) (name : String) (m : MemoryStore) (s : Nat) :
    v.SegmentsChanged name m (m.vacate v.segmentsContainer (Segment.name name s)) :=
  ⟨.vacate (v.owns_segment name s),
    MemoryStore.object?_vacate_of_ne fun h => v.segmentsContainer_ne h.1.symm⟩

theorem ready (h : v.SegmentsChanged name m t) (hm : v.Ready m) : v.Ready t :=
  h.toConfined.ready hm

end SegmentsChanged

/-- From `m` to `t` whatever has changed, all manifests refer to their own segments as before. -/
structure OwnKept (v : Volume) (m t : MemoryStore) : Prop where
  containers : ∀ container ∈ m.containers, container ∈ t.containers
  putBudget : t.putBudget = m.putBudget
  bulkFault : t.bulkFault = m.bulkFault
  own : v.OwnManifests m → v.OwnManifests t

namespace OwnKept

theorem refl (v : Volume) (m : MemoryStore) : v.OwnKept m m :=
  ⟨fun _ h => h, rfl, rfl, fun h => h⟩

theorem trans (h : v.OwnKept m t) (h' : v.OwnKept t u) : v.OwnKept m u :=
  ⟨fun c hc => h'.containers c (h.containers c hc), h'.putBudget.trans h.putBudget,
    h'.bulkFault.trans h.bulkFault, fun hm => h'.own (h.own hm)⟩

theorem ready (h : v.OwnKept m t) (hm : v.Ready m) : v.Ready t :=
  ⟨h.containers _ hm.container, h.containers _ hm.segments, h.putBudget.trans hm.putBudget⟩

/-- A manifest is put at a name that it may have. -/
theorem place (hname : name.toList.getLast? ≠ some '/')
    (ho : o.manifest = some (v.manifestRef name)) : v.OwnKept m (m.place v.container name o) := by
  refine ⟨fun _ => MemoryStore.mem_containers_place, rfl, rfl, fun hm other o' ref ho' href => ?_⟩
  rw [MemoryStore.object?_place] at ho'
  split at ho'
  · next hsame =>
    cases ho'
    rw [ho] at href
    rw [hsame.2]
    exact ⟨(Option.some.inj href).symm, hname⟩
  · exact hm other o' ref ho' href

end OwnKept

/-- Apart from directories objects are what they were. -/
theorem Confined.ownKept (h : v.Confined name m t)
    (hfile : t.object? v.container name = m.object? v.container name ∨
      ∃ o, t.object? v.container name = some o ∧ o.IsDirectory) : v.OwnKept m t := by
  refine ⟨h.containers, h.putBudget, h.bulkFault, fun hm other o ref ho href => ?_⟩
  have hobject : t.object? v.container other = m.object? v.container other ∨
      ∃ o, t.object? v.container other = some o ∧ o.IsDirectory := by
    by_cases hname : other = name
    · exact hname ▸ hfile
    · exact (h.file hname).imp_right And.right
  rcases hobject with hsame | ⟨o', ho', hdirectory⟩
  · exact hm other o ref (hsame ▸ ho) href
  · rw [ho] at ho'
    cases ho'
    rw [hdirectory.manifest] at href
    cases href

theorem SegmentsChanged.ownKept (h : v.SegmentsChanged name m t) : v.OwnKept m t :=
  h.toConfined.ownKept (.inl h.file)

/-! ## Operations that keep to a frame -/

/-- A relation between the states before and after that holds of operations in a row if it holds of
each, and of which the containers outlive what it allows. -/
structure Frame (v : Volume) (R : MemoryStore → MemoryStore → Prop) : Prop where
  refl : ∀ m, R m m
  trans : ∀ {m t u}, R m t → R t u → R m u
  ready : ∀ {m t}, R m t → v.Ready m → v.Ready t

theorem frame_ownKept (v : Volume) : v.Frame v.OwnKept :=
  ⟨.refl v, .trans, fun h hm => h.ready hm⟩

theorem frame_segmentsChanged (v : Volume) (name : String) : v.Frame (v.SegmentsChanged name) :=
  ⟨.refl v name, .trans, fun h hm => h.ready hm⟩

/-- Whatever comes of an operation where calls may fail, the states before and after are related. -/
def KeepsTo (v : Volume) (R : MemoryStore → MemoryStore → Prop) (fails : StoreCall → Prop)
    {α : Type} (x : VolumeAction α) : Prop :=
  Preserves (answer.mayFail fails) (fun m t => v.Ready m → R m t) x

section KeepsTo

variable {α β : Type} {R : MemoryStore → MemoryStore → Prop} {call : StoreCall}

theorem Frame.whenReady_refl (hR : v.Frame R) (m : MemoryStore) : v.Ready m → R m m :=
  fun _ => hR.refl m

theorem Frame.whenReady_trans (hR : v.Frame R) (m t u : MemoryStore) (h : v.Ready m → R m t)
    (h' : v.Ready t → R t u) (hm : v.Ready m) : R m u :=
  hR.trans (h hm) (h' (hR.ready (h hm) hm))

theorem Frame.pure (hR : v.Frame R) (a : α) :
    v.KeepsTo R fails (Pure.pure a : VolumeAction α) :=
  preserves_pure hR.whenReady_refl a

theorem Frame.throw (hR : v.Frame R) (e : VolumeError) :
    v.KeepsTo R fails (MonadExcept.throw e : VolumeAction α) :=
  preserves_throw hR.whenReady_refl e

theorem Frame.bind (hR : v.Frame R) {x : VolumeAction β} {f : β → VolumeAction α}
    (hx : v.KeepsTo R fails x) (hf : ∀ b, v.KeepsTo R fails (f b)) : v.KeepsTo R fails (x >>= f) :=
  Preserves.bind hR.whenReady_refl hR.whenReady_trans hx hf

theorem Frame.forIn (hR : v.Frame R) {xs : List β} {body : β → VolumeAction PUnit}
    (h : ∀ x ∈ xs, v.KeepsTo R fails (body x)) :
    v.KeepsTo R fails (ForIn.forIn xs PUnit.unit fun x _ => do
      body x
      Pure.pure (ForInStep.yield PUnit.unit)) :=
  preserves_forIn hR.whenReady_refl hR.whenReady_trans h

theorem Frame.forIn_value (hR : v.Frame R) {γ : Type} {xs : List β} {init : γ}
    {body : β → γ → VolumeAction (ForInStep γ)} (h : ∀ x ∈ xs, ∀ c, v.KeepsTo R fails (body x c)) :
    v.KeepsTo R fails (ForIn.forIn xs init body) :=
  preserves_forIn_value hR.whenReady_refl hR.whenReady_trans h

theorem Frame.tryCatch (hR : v.Frame R) {x : VolumeAction α} {handle : VolumeError → VolumeAction α}
    (hx : v.KeepsTo R fails x) (hcatch : ∀ e, v.KeepsTo R fails (handle e)) :
    v.KeepsTo R fails (MonadExcept.tryCatch x handle) :=
  preserves_tryCatch hR.whenReady_trans hx hcatch

/-- A call keeps to a frame if what the store makes of it does. -/
theorem Frame.call_at (hR : v.Frame R) (h : ∀ s, v.Ready s → R s (answer call s).2)
    (path : String) : v.KeepsTo R fails (call.at path) :=
  preserves_at_of_mayFail hR.whenReady_refl h path

theorem Frame.call_try (hR : v.Frame R) (h : ∀ s, v.Ready s → R s (answer call s).2) :
    v.KeepsTo R fails call.try :=
  preserves_try_of_mayFail hR.whenReady_refl h

theorem Frame.get_at (hR : v.Frame R) (container text : String) (range : Option ByteRange)
    (path : String) : v.KeepsTo R fails ((StoreCall.get container text range).at path) := by
  refine hR.call_at ?_ path
  intro m _
  exact hR.refl m

theorem Frame.list_at (hR : v.Frame R) (container : String) (options : ListOptions)
    (path : String) : v.KeepsTo R fails ((StoreCall.list container options).at path) := by
  refine hR.call_at ?_ path
  intro m _
  exact hR.refl m

theorem Frame.head_try (hR : v.Frame R) (container text : String) :
    v.KeepsTo R fails (StoreCall.head container text).try :=
  hR.call_try fun m _ => hR.refl m

theorem KeepsTo.mono {R' : MemoryStore → MemoryStore → Prop} {x : VolumeAction α}
    (hx : v.KeepsTo R fails x) (h : ∀ m t, R m t → R' m t) : v.KeepsTo R' fails x :=
  fun m => (hx m).mono fun _ t ht hm => h m t (ht hm)

end KeepsTo

end Volume

end SegmentedFiles
