import SegmentedFiles.Proofs.Store.Alike
import SegmentedFiles.Proofs.Store.Replies
import SegmentedFiles.Volume.Basic

/-! # Two stores that agree on a part

A territory is a set of names, with all that lies below them. Two stores that agree on a territory, but for the times
at which objects were last changed, make the same of a call within it: the replies are the same, they agree again, and
neither changes anything elsewhere (`Agree.answer`). Above the territory directories may be made. Which of them are
missing is not seen by what is done in the territory, so the two stores may differ there; what counts is that no other
object is in the way of a directory. -/

namespace SegmentedFiles

/-- The object, but for the time of the last change. -/
def StoredObject.timeless (object : StoredObject) : StoredObject := { object with lastModified := .epoch }

theorem StoredObject.timeless_eq_iff {o o' : StoredObject} : o.timeless = o'.timeless ↔
    o.content = o'.content ∧ o.contentType = o'.contentType ∧ o.etag = o'.etag ∧ o.manifest = o'.manifest := by
  simp [timeless]

/-- The empty object that is made for a directory, but for its time. -/
def StoredObject.marker : StoredObject :=
  ⟨ByteArray.empty, Volume.directoryType, .epoch, Md5.hexDigest ByteArray.empty, none⟩

theorem StoredObject.timeless_written (m : MemoryStore) :
    (m.written ByteArray.empty (PutOptions.plain Volume.directoryType)).timeless = .marker := by
  rw [timeless, MemoryStore.written, marker, PutOptions.plain]

namespace MemoryStore

variable {m t : MemoryStore} {c n start : String} {o : StoredObject}

/-- What is found under a name of a container, but for its time. -/
def view? (m : MemoryStore) (container name : String) : Option StoredObject :=
  (m.object? container name).map StoredObject.timeless

/-- The objects of a container whose names start with `start`, in name order, but for their times. -/
def viewUnder (m : MemoryStore) (container start : String) : List (String × StoredObject) :=
  (m.under container start).map fun object => (object.1, object.2.timeless)

theorem view?_of_some (h : m.object? c n = some o) : m.view? c n = some o.timeless := by
  rw [view?, h, Option.map_some]

theorem view?_eq_none_iff : m.view? c n = none ↔ m.object? c n = none := Option.map_eq_none_iff

theorem view?_place {c' n' : String} :
    (m.place c n o).view? c' n' = if c' = c ∧ n' = n then some o.timeless else m.view? c' n' := by
  rw [view?, object?_place]
  split <;> rfl

theorem view?_vacate {c' n' : String} :
    (m.vacate c n).view? c' n' = if c' = c ∧ n' = n then none else m.view? c' n' := by
  rw [view?, object?_vacate]
  split <;> rfl

/-- The store with a directory under a name of a container, if there was nothing. -/
def withDirectory (m : MemoryStore) (container name : String) : MemoryStore :=
  match m.object? container name with
  | none => m.place container name (m.written ByteArray.empty (PutOptions.plain Volume.directoryType))
  | some _ => m

theorem mem_viewUnder : (n, o) ∈ m.viewUnder c start ↔ m.view? c n = some o ∧ Text.startsWith n start = true := by
  rw [viewUnder, List.mem_map, view?, Option.map_eq_some_iff]
  constructor
  · intro h
    obtain ⟨object, hobject, heq⟩ := h
    obtain ⟨rfl, rfl⟩ := Prod.mk.inj heq
    obtain ⟨hfound, hstart⟩ := mem_under.1 hobject
    exact ⟨⟨_, hfound, rfl⟩, hstart⟩
  · intro h
    obtain ⟨⟨o', hfound, rfl⟩, hstart⟩ := h
    exact ⟨(n, o'), mem_under.2 ⟨hfound, hstart⟩, rfl⟩

/-- As `under_congr`, but for times. -/
theorem viewUnder_congr (h : ∀ n, Text.startsWith n start = true → t.view? c n = m.view? c n) :
    t.viewUnder c start = m.viewUnder c start := by
  have hirrefl : ∀ a : String, compare a a ≠ .lt := by
    intro a ha
    rw [Std.compare_self] at ha
    cases ha
  have : Std.Irrefl fun a b : String × StoredObject => compare a.1 b.1 = .lt := ⟨fun a => hirrefl a.1⟩
  have : Std.Antisymm fun a b : String × StoredObject => compare a.1 b.1 = .lt :=
    ⟨fun a b hab hba => absurd (Std.TransCmp.lt_trans hab hba) (hirrefl a.1)⟩
  have hsorted (m : MemoryStore) : (m.viewUnder c start).Pairwise fun a b => compare a.1 b.1 = .lt :=
    List.pairwise_map.2 (m.pairwise_under c start)
  refine (hsorted t).eq_of_mem_iff (hsorted m) ?_
  intro object
  rw [mem_viewUnder, mem_viewUnder]
  refine and_congr_left fun hstart => ?_
  rw [h _ hstart]

/-- Reading does not look at times. -/
theorem toList_resolve_timeless {ref : ManifestRef} (h : o.manifest = some ref) :
    (m.resolve o).data.toList
      = (m.viewUnder ref.container ref.start).flatMap fun object => object.2.content.data.toList := by
  rw [toList_resolve_of_manifest h, viewUnder, List.flatMap_map]
  rfl

/-- A listing does not look at times. -/
theorem timeless_answer_list (hc : c ∈ m.containers) (options : ListOptions) :
    (StoreCall.list c options).timeless (answer (.list c options) m).1
      = .ok (options.entries ((m.viewUnder c options.start).map fun object =>
        (object.1, object.2.entry object.1))) := by
  have hentries : options.select ((m.objects c).toList.map fun object =>
      (object.1, (object.2.entry object.1).timeless))
      = options.entries ((m.viewUnder c options.start).map fun object =>
        (object.1, object.2.entry object.1)) := by
    rw [ListOptions.select, List.filter_map, viewUnder, under, List.map_map]
    rfl
  simp only [answer, getElem?_containers hc, StoreCall.timeless, Except.map]
  rw [← hentries, ← ListOptions.select_timeless, List.map_map]
  rfl

end MemoryStore

/-! ## Territories -/

/-- A part of the names of a store, and the directories of one container that lie above it. -/
structure Territory where
  /-- The container of the objects; their segments are in a container of its own. -/
  container : String
  Inside : String → Prop
  /-- The names of the directories above. -/
  above : List String
  ne_empty : ∀ {n}, Inside n → n ≠ ""
  closed : ∀ {n n'}, Inside n → Text.startsWith n' (Segment.start n) = true → Inside n'
  apart : ∀ n ∈ above, ¬Inside n

namespace Territory

variable {T : Territory} {s t s' t' u : MemoryStore} {made made' : List String} {c n : String}
  {o : StoredObject} {call : StoreCall}

/-- The containers of the objects and of their segments. -/
def containers (T : Territory) : List String := [T.container, Segment.containerOf T.container]

/-- Something that is no directory is in the way of one. -/
def Blocked (T : Territory) (m : MemoryStore) (name : String) : Prop :=
  ∃ o, m.view? T.container name = some o ∧ o.contentType ≠ Volume.directoryType

/-- In the territory the same is found in both stores, but for times, and all manifests refer to the segments of
their own names; above it the same names are blocked. No failures are injected. -/
structure Agree (T : Territory) (s t : MemoryStore) : Prop where
  view : ∀ c n, T.Inside n → t.view? c n = s.view? c n
  own : ∀ c n o ref, T.Inside n → s.view? c n = some o → o.manifest = some ref →
    ref = ⟨Segment.containerOf c, Segment.start n⟩
  blocked : ∀ n ∈ T.above, T.Blocked t n ↔ T.Blocked s n
  containers : ∀ c ∈ T.containers, c ∈ t.containers ↔ c ∈ s.containers
  bulkDelete : t.bulkDelete = s.bulkDelete
  putBudget : s.putBudget = none ∧ t.putBudget = none
  bulkFault : s.bulkFault = none ∧ t.bulkFault = none

/-- What is made for a directory: a marker, if its name is one of these. -/
def marker? (T : Territory) (made : List String) (container name : String) : Option StoredObject :=
  if container = T.container ∧ name ∈ made then some .marker else none

/-- From `s` to `t` nothing outside of the territory is changed, but the directories of these names are made where
there was nothing. -/
structure Shift (T : Territory) (made : List String) (s t : MemoryStore) : Prop where
  containers : ∀ c, c ∈ t.containers ↔ c ∈ s.containers
  bulkDelete : t.bulkDelete = s.bulkDelete
  putBudget : t.putBudget = s.putBudget
  bulkFault : t.bulkFault = s.bulkFault
  view : ∀ c n, ¬T.Inside n → t.view? c n = (s.view? c n).or (T.marker? made c n)

/-- Two stores that agree on the territory go on to two that do, by the same directories above it. -/
structure Moves (T : Territory) (s t s' t' : MemoryStore) : Prop where
  agree : T.Agree s' t'
  shift : ∃ made, (∀ n ∈ made, n ∈ T.above) ∧ T.Shift made s s' ∧ T.Shift made t t'

theorem Agree.symm (h : T.Agree s t) : T.Agree t s :=
  ⟨fun c n hn => (h.view c n hn).symm, fun c n o ref hn ho => h.own c n o ref hn (h.view c n hn ▸ ho),
    fun n hn => (h.blocked n hn).symm, fun c hc => (h.containers c hc).symm, h.bulkDelete.symm,
    h.putBudget.symm, h.bulkFault.symm⟩

theorem Agree.atTime (h : T.Agree s t) (time time' : Timestamp) : T.Agree (s.atTime time) (t.atTime time') :=
  ⟨h.view, h.own, h.blocked, h.containers, h.bulkDelete, h.putBudget, h.bulkFault⟩

theorem Moves.ofTime {time time' : Timestamp} (h : T.Moves (s.atTime time) (t.atTime time') s' t') :
    T.Moves s t s' t' := by
  obtain ⟨made, hmade, hs, ht⟩ := h.shift
  exact ⟨h.agree, made, hmade, ⟨hs.containers, hs.bulkDelete, hs.putBudget, hs.bulkFault, hs.view⟩,
    ⟨ht.containers, ht.bulkDelete, ht.putBudget, ht.bulkFault, ht.view⟩⟩

namespace Shift

theorem refl (T : Territory) (s : MemoryStore) : T.Shift [] s s := by
  refine ⟨fun _ => Iff.rfl, rfl, rfl, rfl, fun c n _ => ?_⟩
  rw [marker?, if_neg (by simp), Option.or_none]

theorem marker?_append : T.marker? (made ++ made') c n = (T.marker? made c n).or (T.marker? made' c n) := by
  unfold marker?
  by_cases hc : c = T.container
  · by_cases hmade : n ∈ made <;> by_cases hmade' : n ∈ made' <;> simp [hc, hmade, hmade']
  · simp [hc]

theorem trans (h : T.Shift made s t) (h' : T.Shift made' t u) : T.Shift (made ++ made') s u := by
  refine ⟨fun c => (h'.containers c).trans (h.containers c), h'.bulkDelete.trans h.bulkDelete,
    h'.putBudget.trans h.putBudget, h'.bulkFault.trans h.bulkFault, fun c n hn => ?_⟩
  rw [h'.view c n hn, h.view c n hn, marker?_append, Option.or_assoc]

/-- A change in the territory. -/
theorem of_inside (halike : MemoryStore.Alike s t) (hview : ∀ c n, ¬T.Inside n → t.view? c n = s.view? c n) :
    T.Shift [] s t := by
  refine ⟨halike.containers, halike.bulkDelete, halike.putBudget, halike.bulkFault, fun c n hn => ?_⟩
  rw [hview c n hn, marker?, if_neg (by simp), Option.or_none]

/-- A directory that is made is in no way. -/
theorem blocked (h : T.Shift made s t) (hn : ¬T.Inside n) : T.Blocked t n ↔ T.Blocked s n := by
  unfold Blocked
  rw [h.view _ _ hn]
  cases s.view? T.container n with
  | some o => exact Iff.rfl
  | none =>
    unfold marker?
    split
    · simp [StoredObject.marker]
    · exact Iff.rfl

end Shift

namespace Moves

theorem refl (h : T.Agree s t) : T.Moves s t s t :=
  ⟨h, [], nofun, .refl T s, .refl T t⟩

theorem trans {u v : MemoryStore} (h : T.Moves s t s' t') (h' : T.Moves s' t' u v) : T.Moves s t u v := by
  obtain ⟨made, hmade, hs, ht⟩ := h.shift
  obtain ⟨made', hmade', hs', ht'⟩ := h'.shift
  refine ⟨h'.agree, made ++ made', fun n hn => ?_, hs.trans hs', ht.trans ht'⟩
  exact (List.mem_append.1 hn).elim (hmade n) (hmade' n)

end Moves

/-! ## Calls within a territory -/

/-- What is found in the territory is found in both stores, and reads the same in both. -/
theorem Agree.object_cases (h : T.Agree s t) (hn : T.Inside n) :
    (s.object? c n = none ∧ t.object? c n = none) ∨
      ∃ o o', s.object? c n = some o ∧ t.object? c n = some o' ∧ o.timeless = o'.timeless ∧
        s.resolve o = t.resolve o' ∧
        ∀ ref, o.manifest = some ref → ref = ⟨Segment.containerOf c, Segment.start n⟩ := by
  have hview := h.view c n hn
  cases hs : s.object? c n with
  | none =>
    rw [MemoryStore.view?_eq_none_iff.2 hs, MemoryStore.view?_eq_none_iff] at hview
    exact .inl ⟨rfl, hview⟩
  | some o =>
    rw [MemoryStore.view?_of_some hs, MemoryStore.view?, Option.map_eq_some_iff] at hview
    obtain ⟨o', ht, htimeless⟩ := hview
    have hown : ∀ ref, o.manifest = some ref → ref = ⟨Segment.containerOf c, Segment.start n⟩ :=
      fun ref href => h.own c n o.timeless ref hn (MemoryStore.view?_of_some hs) href
    obtain ⟨hcontent, -, -, hmanifest⟩ := StoredObject.timeless_eq_iff.1 htimeless
    refine .inr ⟨o, o', rfl, ht, htimeless.symm, ?_, hown⟩
    cases href : o.manifest with
    | none =>
      rw [MemoryStore.resolve_of_plain href, MemoryStore.resolve_of_plain (hmanifest.trans href)]
      exact hcontent.symm
    | some ref =>
      refine ByteArray.ext (Array.toList_inj.1 ?_)
      rw [MemoryStore.toList_resolve_timeless href,
        MemoryStore.toList_resolve_timeless (hmanifest.trans href), hown ref href]
      exact congrArg _ (MemoryStore.viewUnder_congr fun _ hstart => h.view _ _ (T.closed hn hstart)).symm

theorem Agree.changed (h : T.Agree s t) (hs : T.Shift made s s') (ht : T.Shift made t t')
    (hview : ∀ c n, T.Inside n → t'.view? c n = s'.view? c n)
    (hown : ∀ c n o ref, T.Inside n → s'.view? c n = some o → o.manifest = some ref →
      ref = ⟨Segment.containerOf c, Segment.start n⟩) : T.Agree s' t' := by
  refine ⟨hview, hown, fun n hn => ?_, fun c hc => ?_, ?_, ?_, ?_⟩
  · rw [hs.blocked (T.apart n hn), ht.blocked (T.apart n hn), h.blocked n hn]
  · rw [hs.containers, ht.containers, h.containers c hc]
  · rw [hs.bulkDelete, ht.bulkDelete, h.bulkDelete]
  · rw [hs.putBudget, ht.putBudget]
    exact h.putBudget
  · rw [hs.bulkFault, ht.bulkFault]
    exact h.bulkFault

/-- The same object is put at the same place of the territory. -/
theorem Agree.place {o o' : StoredObject} (h : T.Agree s t) (hn : T.Inside n) (hs : c ∈ s.containers)
    (ht : c ∈ t.containers) (ho : o.timeless = o'.timeless)
    (hown : ∀ ref, o.manifest = some ref → ref = ⟨Segment.containerOf c, Segment.start n⟩) :
    T.Moves s t (s.place c n o) (t.place c n o') := by
  have hshift {m : MemoryStore} {o : StoredObject} (hc : c ∈ m.containers) :
      T.Shift [] m (m.place c n o) := by
    refine .of_inside (.place hc) fun c' n' hn' => ?_
    rw [MemoryStore.view?_place, if_neg]
    exact fun hplace => hn' (hplace.2 ▸ hn)
  refine ⟨h.changed (hshift hs) (hshift ht) (fun c' n' hn' => ?_) (fun c' n' found ref hn' hfound href => ?_),
    [], nofun, hshift hs, hshift ht⟩
  · rw [MemoryStore.view?_place, MemoryStore.view?_place, ho, h.view c' n' hn']
  · rw [MemoryStore.view?_place] at hfound
    split at hfound
    · next hplace =>
      cases hfound
      rw [hplace.1, hplace.2]
      exact hown ref href
    · exact h.own c' n' found ref hn' hfound href

/-- An object of the territory is taken away from both stores. -/
theorem Agree.vacate (h : T.Agree s t) (hn : T.Inside n) (hs : c ∈ s.containers) (ht : c ∈ t.containers) :
    T.Moves s t (s.vacate c n) (t.vacate c n) := by
  have hshift {m : MemoryStore} (hc : c ∈ m.containers) : T.Shift [] m (m.vacate c n) := by
    refine .of_inside (.vacate hc) fun c' n' hn' => ?_
    rw [MemoryStore.view?_vacate, if_neg]
    exact fun hplace => hn' (hplace.2 ▸ hn)
  refine ⟨h.changed (hshift hs) (hshift ht) (fun c' n' hn' => ?_) (fun c' n' found ref hn' hfound href => ?_),
    [], nofun, hshift hs, hshift ht⟩
  · rw [MemoryStore.view?_vacate, MemoryStore.view?_vacate, h.view c' n' hn']
  · rw [MemoryStore.view?_vacate] at hfound
    split at hfound
    · cases hfound
    · exact h.own c' n' found ref hn' hfound href

/-! ## Directories above a territory -/

theorem view?_withDirectory {m : MemoryStore} {c' n' : String} :
    (m.withDirectory c n).view? c' n' =
      (m.view? c' n').or (if c' = c ∧ n' = n then some .marker else none) := by
  unfold MemoryStore.withDirectory
  cases ho : m.object? c n with
  | none =>
    dsimp only
    rw [MemoryStore.view?_place]
    split
    · next hplace =>
      rw [hplace.1, hplace.2, MemoryStore.view?_eq_none_iff.2 ho, StoredObject.timeless_written, Option.none_or]
    · rw [Option.or_none]
  | some o =>
    dsimp only
    split
    · next hplace =>
      rw [hplace.1, hplace.2, MemoryStore.view?_of_some ho]
      rfl
    · rw [Option.or_none]

/-- A directory is made above the territory, in each store where it is missing. -/
theorem Agree.withDirectory (h : T.Agree s t) (hn : n ∈ T.above) (hs : T.container ∈ s.containers)
    (ht : T.container ∈ t.containers) :
    T.Moves s t (s.withDirectory T.container n) (t.withDirectory T.container n) := by
  have hshift {m : MemoryStore} (hc : T.container ∈ m.containers) :
      T.Shift [n] m (m.withDirectory T.container n) := by
    have halike : MemoryStore.Alike m (m.withDirectory T.container n) := by
      unfold MemoryStore.withDirectory
      split
      · exact .place hc
      · exact .refl m
    refine ⟨halike.containers, halike.bulkDelete, halike.putBudget, halike.bulkFault, fun c' n' _ => ?_⟩
    rw [view?_withDirectory, marker?]
    simp only [List.mem_singleton]
  have hkept {m : MemoryStore} {c' n' : String} (hn' : T.Inside n') :
      (m.withDirectory T.container n).view? c' n' = m.view? c' n' := by
    rw [view?_withDirectory, if_neg, Option.or_none]
    exact fun hplace => T.apart n hn (hplace.2 ▸ hn')
  refine ⟨h.changed (hshift hs) (hshift ht) (fun c' n' hn' => ?_) (fun c' n' o ref hn' ho href => ?_), [n], ?_,
    hshift hs, hshift ht⟩
  · rw [hkept hn', hkept hn', h.view c' n' hn']
  · exact h.own c' n' o ref hn' (hkept hn' ▸ ho) href
  · intro n' hn'
    exact List.mem_singleton.1 hn' ▸ hn

end Territory

/-- The call is about the territory only, and makes no manifest there but one of the name's own segments. -/
def StoreCall.Within (T : Territory) : StoreCall → Prop
  | .createContainer _ => False
  | .head _ name => T.Inside name
  | .get _ name _ => T.Inside name
  | .openFrom _ name _ => T.Inside name
  | .put container name _ options => container ∈ T.containers ∧ T.Inside name ∧
    ∀ ref, options.manifest = some ref → ref = ⟨Segment.containerOf container, Segment.start name⟩
  | .copy source target => T.Inside source.name ∧ target.container ∈ T.containers ∧ T.Inside target.name
  | .delete _ name => T.Inside name
  | .bulkDelete targets => ∀ target ∈ targets, T.Inside target.name
  | .list container options => container ∈ T.containers ∧
    ∀ n, Text.startsWith n options.start = true → T.Inside n
  | .capabilities => True

namespace Territory

variable {T : Territory} {s t : MemoryStore} {c n : String} {call : StoreCall}

open MemoryStore (answer)

/-- A call does the same in both stores: the same reply, but for times, and the same changes. -/
def Same (T : Territory) (call : StoreCall) (s t : MemoryStore) : Prop :=
  call.timeless (answer call s).1 = call.timeless (answer call t).1 ∧
    T.Moves s t (answer call s).2 (answer call t).2

namespace Agree

theorem head (h : T.Agree s t) (hn : T.Inside n) : T.Same (.head c n) s t := by
  rcases h.object_cases (c := c) hn with ⟨hs, ht⟩ | ⟨o, o', hs, ht, htimeless, hresolve, -⟩
  · rw [Same, MemoryStore.answer_head_of_none hs, MemoryStore.answer_head_of_none ht]
    exact ⟨rfl, .refl h⟩
  · rw [Same, MemoryStore.answer_head_of_some hs, MemoryStore.answer_head_of_some ht, hresolve]
    obtain ⟨-, htype, hetag, hmanifest⟩ := StoredObject.timeless_eq_iff.1 htimeless
    refine ⟨congrArg Except.ok ?_, .refl h⟩
    simp only [ObjectInfo.timeless, StoredObject.info, htype, hetag, hmanifest]

theorem read (h : T.Agree s t) (hn : T.Inside n) (range : Option ByteRange) :
    s.read c n range = t.read c n range := by
  unfold MemoryStore.read
  rcases h.object_cases (c := c) hn with ⟨hs, ht⟩ | ⟨o, o', hs, ht, -, hresolve, -⟩
  · rw [hs, ht]
  · rw [hs, ht]
    dsimp only
    rw [hresolve]

theorem insert {content : Payload} {options : PutOptions} (h : T.Agree s t) (hc : c ∈ T.containers)
    (hn : T.Inside n) (hown : ∀ ref, options.manifest = some ref →
      ref = ⟨Segment.containerOf c, Segment.start n⟩) :
    (s.orUnchanged (s.insert c n content options)).1 = (t.orUnchanged (t.insert c n content options)).1 ∧
      T.Moves s t (s.orUnchanged (s.insert c n content options)).2
        (t.orUnchanged (t.insert c n content options)).2 := by
  have hplace {m : MemoryStore} (hm : c ∈ m.containers) :
      m.orUnchanged (m.insert c n content options) = (.ok (), m.place c n (m.written content options)) := by
    simp only [MemoryStore.insert, MemoryStore.getElem?_containers hm, MemoryStore.orUnchanged]
    rfl
  have hlost {m : MemoryStore} (hm : c ∉ m.containers) :
      m.orUnchanged (m.insert c n content options) = (.error .notFound, m) := by
    simp only [MemoryStore.insert, Std.ExtTreeMap.getElem?_eq_none hm, MemoryStore.orUnchanged]
  by_cases hs : c ∈ s.containers
  · have ht : c ∈ t.containers := (h.containers c hc).2 hs
    have htimeless : (s.written content options).timeless = (t.written content options).timeless :=
      StoredObject.timeless_eq_iff.2 ⟨rfl, rfl, rfl, rfl⟩
    rw [hplace hs, hplace ht]
    exact ⟨rfl, h.place hn hs ht htimeless hown⟩
  · have ht : c ∉ t.containers := fun ht => hs ((h.containers c hc).1 ht)
    rw [hlost hs, hlost ht]
    exact ⟨rfl, .refl h⟩

theorem erase? (h : T.Agree s t) (hn : T.Inside n) :
    (s.erase? c n = none ∧ t.erase? c n = none) ∨
      ∃ s' t', s.erase? c n = some s' ∧ t.erase? c n = some t' ∧ T.Moves s t s' t' := by
  rcases h.object_cases (c := c) hn with ⟨hs, ht⟩ | ⟨o, o', hs, ht, -⟩
  · exact .inl ⟨MemoryStore.erase?_of_none hs, MemoryStore.erase?_of_none ht⟩
  · exact .inr ⟨_, _, MemoryStore.erase?_of_some hs, MemoryStore.erase?_of_some ht,
      h.vacate hn (MemoryStore.mem_containers_of_object? hs) (MemoryStore.mem_containers_of_object? ht)⟩

theorem eraseAll (h : T.Agree s t) {targets : List ObjectTarget}
    (htargets : ∀ target ∈ targets, T.Inside target.name) (summary : BulkDeleteSummary) :
    (s.eraseAll targets summary).1 = (t.eraseAll targets summary).1 ∧
      T.Moves s t (s.eraseAll targets summary).2 (t.eraseAll targets summary).2 := by
  induction targets generalizing s t summary with
  | nil => exact ⟨rfl, .refl h⟩
  | cons target rest ih =>
    unfold MemoryStore.eraseAll
    have hrest : ∀ target ∈ rest, T.Inside target.name :=
      fun other hother => htargets other (List.mem_cons_of_mem target hother)
    rcases h.erase? (c := target.container) (htargets target List.mem_cons_self) with
      ⟨hs, ht⟩ | ⟨s', t', hs, ht, hmoves⟩
    · rw [hs, ht]
      exact ih h hrest _
    · rw [hs, ht]
      obtain ⟨hsummary, hmoves'⟩ := ih hmoves.agree hrest { summary with deleted := summary.deleted + 1 }
      exact ⟨hsummary, hmoves.trans hmoves'⟩

/-- That a bulk delete has been asked for is nothing that is found. -/
theorem counted (h : T.Agree s t) :
    T.Moves s t { s with bulkDeleteCalls := s.bulkDeleteCalls + 1 }
      { t with bulkDeleteCalls := t.bulkDeleteCalls + 1 } :=
  ⟨⟨h.view, h.own, h.blocked, h.containers, h.bulkDelete, h.putBudget, h.bulkFault⟩, [], nofun,
    .of_inside (.bulkDeleteCalls s _) fun _ _ _ => rfl, .of_inside (.bulkDeleteCalls t _) fun _ _ _ => rfl⟩

theorem answerBulk (h : T.Agree s t) {targets : List ObjectTarget}
    (htargets : ∀ target ∈ targets, T.Inside target.name) : T.Same (.bulkDelete targets) s t := by
  have hanswer {m : MemoryStore} (hm : m.bulkFault = none) (hbulk : m.bulkDelete = true) :
      answer (.bulkDelete targets) m =
        (.ok (MemoryStore.eraseAll { m with bulkDeleteCalls := m.bulkDeleteCalls + 1 } targets .empty).1,
          (MemoryStore.eraseAll { m with bulkDeleteCalls := m.bulkDeleteCalls + 1 } targets .empty).2) := by
    simp only [answer, MemoryStore.answerBulk, hbulk, if_true, hm]
  have hrefused {m : MemoryStore} (hbulk : m.bulkDelete = false) :
      answer (.bulkDelete targets) m = (.error (.unsupported "bulk delete"), m) := by
    simp [answer, MemoryStore.answerBulk, hbulk]
  cases hbulk : s.bulkDelete with
  | true =>
    rw [Same, hanswer h.bulkFault.1 hbulk, hanswer h.bulkFault.2 (h.bulkDelete.trans hbulk)]
    obtain ⟨hsummary, hmoves⟩ := h.counted.agree.eraseAll htargets .empty
    exact ⟨congrArg Except.ok hsummary, h.counted.trans hmoves⟩
  | false =>
    rw [Same, hrefused hbulk, hrefused (h.bulkDelete.trans hbulk)]
    exact ⟨rfl, .refl h⟩

theorem list {options : ListOptions} (h : T.Agree s t) (hc : c ∈ T.containers)
    (hstart : ∀ n, Text.startsWith n options.start = true → T.Inside n) :
    T.Same (.list c options) s t := by
  refine ⟨?_, .refl h⟩
  by_cases hs : c ∈ s.containers
  · rw [MemoryStore.timeless_answer_list hs, MemoryStore.timeless_answer_list ((h.containers c hc).2 hs),
      MemoryStore.viewUnder_congr fun n hn => h.view c n (hstart n hn)]
  · have ht : c ∉ t.containers := fun ht => hs ((h.containers c hc).1 ht)
    simp only [answer, Std.ExtTreeMap.getElem?_eq_none hs, Std.ExtTreeMap.getElem?_eq_none ht]

/-- A call within the territory does the same in two stores that agree on it. -/
theorem answer (h : T.Agree s t) (hcall : call.Within T) : T.Same call s t := by
  cases call with
  | createContainer c => exact hcall.elim
  | head c n => exact h.head hcall
  | get c n range => exact ⟨h.read hcall range, .refl h⟩
  | openFrom c n offset =>
    refine ⟨?_, .refl h⟩
    simp only [StoreCall.timeless, MemoryStore.answer, h.read hcall]
  | put c n body options =>
    obtain ⟨hc, hn, hown⟩ := hcall
    simp only [Same, MemoryStore.answer, MemoryStore.takePut, h.putBudget.1, h.putBudget.2]
    exact h.insert hc hn hown
  | copy source target =>
    obtain ⟨hsource, hc, htarget⟩ := hcall
    rcases h.object_cases (c := source.container) hsource with
      ⟨hs, ht⟩ | ⟨o, o', hs, ht, htimeless, hresolve, -⟩
    · simp only [Same, MemoryStore.answer, hs, ht]
      exact ⟨rfl, .refl h⟩
    · obtain ⟨-, htype, -⟩ := StoredObject.timeless_eq_iff.1 htimeless
      simp only [Same, MemoryStore.answer, hs, ht, hresolve, htype]
      exact h.insert hc htarget fun ref href => absurd href.symm (Option.some_ne_none ref)
  | delete c n =>
    rcases h.erase? (c := c) hcall with ⟨hs, ht⟩ | ⟨s', t', hs, ht, hmoves⟩
    · simp only [Same, MemoryStore.answer, hs, ht]
      exact ⟨rfl, .refl h⟩
    · simp only [Same, MemoryStore.answer, hs, ht]
      exact ⟨rfl, hmoves⟩
  | bulkDelete targets => exact h.answerBulk hcall
  | list c options => exact h.list hcall.1 hcall.2
  | capabilities =>
    refine ⟨?_, .refl h⟩
    simp only [StoreCall.timeless, MemoryStore.answer, h.bulkDelete]

end Agree

end Territory

end SegmentedFiles
