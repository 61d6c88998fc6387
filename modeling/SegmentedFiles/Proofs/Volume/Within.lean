import SegmentedFiles.Proofs.Volume.Keeps
import SegmentedFiles.Proofs.Volume.Remove
import SegmentedFiles.Proofs.Volume.Steady
import SegmentedFiles.Volume.Replace

/-! # The operations on files, within a territory

Each operation is steady in a territory in which the objects of its paths are, and in which, or right above which, the
directories above them are (`Territory.Covers`): nothing else in the store makes a difference to it, and it makes none
to anything else (`VolumeCall.steady_perform`). -/

namespace SegmentedFiles

open MemoryStore (answer)

/-- The territory has the object of a path in it, and the directories above that are in it or right above it. The root
has a name of its own there. -/
structure Territory.Covers (T : Territory) (v : Volume) (path : String) : Prop where
  name : Path.isBelowRoot path = true → T.Inside (v.storeName path)
  parents : Path.isBelowRoot path = true → ∀ dir ∈ Path.ancestors path,
    T.Inside (v.storeName dir) ∨ v.storeName dir ∈ T.above
  root : path = "/" → T.Inside (v.storeDirectory path)

theorem Territory.Covers.directory {T : Territory} {v : Volume} {path : String} (h : T.Covers v path)
    (hpath : (Path.isBelowRoot path || (true && path == "/")) = true) : T.Inside (v.storeDirectory path) := by
  rw [Bool.or_eq_true, Bool.true_and, beq_iff_eq] at hpath
  rcases hpath with hbelow | hroot
  · exact Volume.storeDirectory_eq hbelow ▸ h.name hbelow
  · exact h.root hroot

namespace Volume

open Territory

variable {T : Territory} {v : Volume} {name path container : String}

/-- The objects of the volume are in the container of the territory. -/
abbrev IsOf (v : Volume) (T : Territory) : Prop := v.container = T.container

theorem container_mem (hv : v.IsOf T) : v.container ∈ T.containers := hv ▸ List.mem_cons_self

theorem segmentsContainer_mem (hv : v.IsOf T) : v.segmentsContainer ∈ T.containers := by
  rw [segmentsContainer, hv]
  exact List.mem_cons_of_mem _ (List.mem_singleton_self _)

/-- A path that is the path of something, and what follows then. -/
theorem checkPath_bind_steady {α : Type} {allowRoot : Bool} {f : Unit → VolumeAction α} {P : α → Prop}
    (h : (Path.isBelowRoot path || (allowRoot && path == "/")) = true → T.Steady (f ()) P) :
    T.Steady (checkPath path allowRoot >>= f) P := by
  unfold checkPath
  split
  · next hpath =>
    rw [pure_bind]
    exact h hpath
  · exact steady_throw_bind _ _

theorem deleteQuietly_steady (h : T.Inside name) : T.Steady (deleteQuietly container name path) fun _ => True := by
  refine steady_try_bind h (fun _ => rfl) fun reply _ => ?_
  split
  · exact steady_pure trivial
  · exact steady_pure trivial
  · exact steady_throw _

theorem removeSegments_steady {ref : ManifestRef} (hcontainer : ref.container ∈ T.containers)
    (hstart : ∀ n, Text.startsWith n ref.start = true → T.Inside n) :
    T.Steady (removeSegments path ref) fun _ => True := by
  refine steady_try_bind ⟨hcontainer, hstart⟩ (fun reply => ?_) fun reply hreply => ?_
  · cases reply with
    | ok infos =>
      dsimp only [StoreCall.timeless, Except.map]
      rw [List.filter_map, List.forIn_map]
      rfl
    | error e => rfl
  · split
    · exact steady_pure trivial
    · exact steady_throw _
    · next infos =>
      refine (steady_forIn fun info hinfo => ?_).bind fun _ _ => steady_pure trivial
      exact deleteQuietly_steady (hreply infos rfl rfl info (List.mem_filter.1 hinfo).1)

theorem removeManifest_steady (hv : v.IsOf T) (h : T.Inside name) :
    T.Steady (removeSegments path (v.manifestRef name)) fun _ => True :=
  removeSegments_steady (segmentsContainer_mem hv) fun _ => T.closed h

theorem manifestAt_steady (h : T.Inside name) : T.Steady (v.manifestAt path name) fun found =>
    ∀ ref, found = some ref → ref = v.manifestRef name := by
  refine steady_try_bind h (fun reply => ?_) fun reply hreply => ?_
  · cases reply <;> rfl
  · split
    · next info => exact steady_pure fun ref href => hreply info ref rfl href
    · exact steady_pure nofun
    · exact steady_throw _

/-- The object and then its segments. -/
theorem removeObject_steady (hv : v.IsOf T) (h : T.Inside name) :
    T.Steady (v.removeObject name) fun _ => True := by
  refine steady_try_bind h (fun reply => ?_) fun reply hreply => ?_
  · cases reply <;> rfl
  split
  · exact steady_pure trivial
  · exact steady_throw _
  next info =>
  dsimp only
  split
  · next ref href =>
    obtain rfl := hreply info ref rfl href
    exact (removeManifest_steady hv h).bind fun _ _ => deleteQuietly_steady h
  · exact deleteQuietly_steady h

theorem removeInBulk_steady {base : String} {names : List String} (hv : v.IsOf T) (hbase : T.Inside base)
    (hnames : ∀ name ∈ names, T.Inside name) :
    T.Steady (v.removeInBulk path base names) fun _ => True := by
  have hempty : ¬base.isEmpty = true := fun h => T.ne_empty hbase (String.isEmpty_iff.1 h)
  unfold removeInBulk
  rw [if_neg hempty]
  have hlist : (StoreCall.list v.segmentsContainer (.all (base ++ "/"))).Within T :=
    ⟨v.segmentsContainer_mem hv, fun n => T.closed hbase⟩
  refine steady_at_bind hlist (fun infos infos' h => ?_) fun infos hinfos => ?_
  · cases h
    dsimp only
    rw [List.map_map]
    rfl
  have htargets : ∀ batch ∈ batches bulkDeleteBatch (names.map (ObjectTarget.mk v.container)
      ++ infos.map fun info => ObjectTarget.mk v.segmentsContainer info.name),
      ∀ target ∈ batch, T.Inside target.name := by
    intro batch hbatch target htarget
    have hmem := List.mem_flatten.2 ⟨batch, hbatch, htarget⟩
    rw [flatten_batches (by decide)] at hmem
    rcases List.mem_append.1 hmem with hobject | hsegment
    · obtain ⟨name, hname, rfl⟩ := List.mem_map.1 hobject
      exact hnames name hname
    · obtain ⟨info, hinfo, rfl⟩ := List.mem_map.1 hsegment
      exact hinfos infos rfl rfl info hinfo
  refine (steady_forIn_value fun batch hbatch failed => ?_).bind fun failed _ => ?_
  · refine steady_at_bind (htargets batch hbatch) (fun summary summary' h => ?_) fun summary _ => steady_pure trivial
    cases h
    rfl
  · dsimp only
    split
    · exact steady_throw _
    · exact steady_pure trivial

/-- Of a listing, the names in the territory are the same in both stores, whatever else starts as these do. -/
theorem filter_names_eq {s t : MemoryStore} (h : T.Agree s t) (container start : String) {p : String → Bool}
    (hp : ∀ n, p n = true → T.Inside n) :
    (((s.under container start).map fun object => object.2.entry object.1).map ObjectInfo.name).filter p
      = (((t.under container start).map fun object => object.2.entry object.1).map ObjectInfo.name).filter p := by
  have hnames (m : MemoryStore) : ((m.under container start).map fun object => object.2.entry object.1).map
      ObjectInfo.name = (m.under container start).map Prod.fst := by
    rw [List.map_map]
    rfl
  have hsorted (m : MemoryStore) :
      (((m.under container start).map Prod.fst).filter p).Pairwise fun a b => compare a b = .lt :=
    (List.pairwise_map.2 (m.pairwise_under container start)).filter _
  have hmem (m : MemoryStore) (n : String) : n ∈ ((m.under container start).map Prod.fst).filter p ↔
      m.view? container n ≠ none ∧ Text.startsWith n start = true ∧ p n = true := by
    rw [List.mem_filter, List.mem_map, ← and_assoc, Ne, MemoryStore.view?_eq_none_iff, ← Ne,
      Option.ne_none_iff_exists']
    refine and_congr_left fun _ => ?_
    constructor
    · intro h
      obtain ⟨object, hobject, rfl⟩ := h
      obtain ⟨hfound, hstart⟩ := MemoryStore.mem_under.1 hobject
      exact ⟨⟨_, hfound⟩, hstart⟩
    · intro h
      obtain ⟨⟨o, ho⟩, hstart⟩ := h
      exact ⟨(n, o), MemoryStore.mem_under.2 ⟨ho, hstart⟩, rfl⟩
  rw [hnames, hnames]
  refine MemoryStore.names_eq_of_mem_iff (hsorted s) (hsorted t) fun n => ?_
  rw [hmem, hmem]
  refine ⟨fun hn => ?_, fun hn => ?_⟩
  · rwa [h.view container n (hp n hn.2.2)]
  · rwa [← h.view container n (hp n hn.2.2)]

/-- What is at a path and below it is removed, in bulk or one by one. -/
theorem remove_steady (hv : v.IsOf T) (h : T.Covers v path) : T.Steady (v.remove path) fun _ => True := by
  refine checkPath_bind_steady fun hpath => ?_
  have hbase := h.directory hpath
  dsimp only
  generalize v.storeDirectory path = base at hbase
  have hempty : base.isEmpty = false :=
    Bool.eq_false_iff.2 fun h => T.ne_empty hbase (String.isEmpty_iff.1 h)
  have hinside : ∀ name, (base.isEmpty || name == base || Text.startsWith name (base ++ "/")) = true →
      T.Inside name := by
    intro name hname
    rw [hempty, Bool.false_or, Bool.or_eq_true, beq_iff_eq] at hname
    rcases hname with rfl | hbelow
    · exact hbase
    · exact T.closed hbase hbelow
  rw [at_bind_eq]
  refine steady_try_bind_of fun s t hst => ⟨(answer (.list v.container (.all base)) s).1, rfl, ?_, .refl hst, ?_⟩
  · -- The listings differ in names that start as `base` does but lie elsewhere, which are left out.
    by_cases hs : v.container ∈ s.containers
    · have ht : v.container ∈ t.containers := (hst.containers _ (container_mem hv)).2 hs
      rw [MemoryStore.answer_list_all hs, MemoryStore.answer_list_all ht]
      dsimp only
      rw [filter_names_eq hst v.container base hinside]
    · have ht : v.container ∉ t.containers := fun ht => hs ((hst.containers _ (container_mem hv)).1 ht)
      simp only [answer, Std.ExtTreeMap.getElem?_eq_none hs, Std.ExtTreeMap.getElem?_eq_none ht]
  · cases (answer (.list v.container (.all base)) s).1 with
    | error e => exact steady_throw _
    | ok infos =>
      dsimp only
      generalize hnames : (infos.map ObjectInfo.name).filter (fun name =>
        base.isEmpty || name == base || Text.startsWith name (base ++ "/")) = names
      have hin : ∀ name ∈ names, T.Inside name := by
        rw [← hnames]
        exact fun name hname => hinside name (List.mem_filter.1 hname).2
      have hthen : ∀ removed : Bool, T.Steady (do
          unless removed do
            for name in names do v.removeObject name) fun _ => True := by
        intro removed
        cases removed with
        | true => exact steady_pure trivial
        | false =>
          refine (steady_forIn fun name hname => ?_).bind fun _ _ => steady_pure trivial
          exact removeObject_steady hv (hin name hname)
      split
      · exact steady_throw_bind _ _
      split
      · refine Steady.bind (P := fun _ => True) (steady_tryCatch ?_ fun _ => steady_pure trivial)
          fun removed _ => hthen removed
        exact (removeInBulk_steady hv hbase hin).bind fun _ _ => steady_pure trivial
      · exact hthen false

theorem makeParents_steady (hcontainer : v.container = T.container)
    (h : ∀ dir ∈ Path.ancestors path, T.Inside (v.storeName dir) ∨ v.storeName dir ∈ T.above) :
    T.Steady (v.makeParents path) fun _ => True := by
  refine (steady_forIn_value fun dir hdir _ => ?_).bind fun _ _ => steady_pure trivial
  rcases h dir hdir with hinside | habove
  · refine steady_try_bind hinside (fun reply => ?_) fun reply _ => ?_
    · cases reply <;> rfl
    · split
      · split
        · exact steady_throw_bind _ _
        · exact steady_pure trivial
      · exact (steady_put_at (hcontainer ▸ List.mem_cons_self) hinside).bind fun _ _ => steady_pure trivial
      · exact steady_throw_bind _ _
  · -- The directory may be missing in one of the stores only, so it is made there and not in the other.
    generalize v.storeName dir = name at habove ⊢
    rw [hcontainer]
    refine steady_of_withDirectory (.yield PUnit.unit) (.invalidPath path) (.ofStore dir .notFound) habove trivial
      ?_ ?_ ?_
    · intro m hm
      obtain ⟨_, hview, htype⟩ := hm
      obtain ⟨o, ho, rfl⟩ := Option.map_eq_some_iff.1 hview
      rw [runOn_try_bind, MemoryStore.answer_head_of_some ho]
      dsimp only
      have hfile : ((o.info name (m.resolve o).size).contentType != directoryType) = true := bne_iff_ne.2 htype
      rw [if_pos hfile]
      rfl
    · intro m hbudget hm
      rw [runOn_try_bind, MemoryStore.answer_head_of_none (MemoryStore.object?_of_not_mem hm)]
      dsimp only
      rw [at_bind_eq, runOn_try_bind, MemoryStore.answer_put_of_not_mem hm hbudget]
      rfl
    · intro m hbudget hfree hm
      cases ho : m.object? T.container name with
      | none =>
        rw [runOn_try_bind, MemoryStore.answer_head_of_none ho]
        dsimp only
        rw [at_bind_eq, runOn_try_bind, MemoryStore.answer_put hm hbudget]
        simp only [MemoryStore.withDirectory, ho]
        rfl
      | some o =>
        rw [runOn_try_bind, MemoryStore.answer_head_of_some ho]
        dsimp only
        rw [if_neg]
        · simp only [MemoryStore.withDirectory, ho]
          rfl
        · intro htype
          exact hfree ⟨_, MemoryStore.view?_of_some ho, bne_iff_ne.1 htype⟩

/-! ## Segments -/

theorem segments_steady (hv : v.IsOf T) (h : T.Inside name) :
    T.Steady (v.segments path name) fun entries => ∀ entry ∈ entries, T.Inside entry.name := by
  rw [segments_eq]
  have hlist : (StoreCall.list v.segmentsContainer (.all (Segment.start name))).Within T :=
    ⟨segmentsContainer_mem hv, fun n => T.closed h⟩
  refine steady_at_bind hlist (fun infos infos' hinfos => ?_) fun infos _ => steady_pure ?_
  · cases hinfos
    rw [entriesOf, List.filterMap_map]
    rfl
  · intro entry hentry
    rw [name_of_mem_entriesOf hentry]
    exact T.closed h Segment.startsWith_name

theorem clearSegments_steady (hv : v.IsOf T) (h : T.Inside name) :
    T.Steady (v.clearSegments path name) fun _ => True := by
  refine (segments_steady hv h).bind fun entries hentries => ?_
  refine (steady_forIn fun entry hentry => ?_).bind fun _ _ => steady_pure trivial
  exact deleteQuietly_steady (hentries entry hentry)

theorem putSegment_steady (hv : v.IsOf T) (h : T.Inside name) (sequence : Nat) (content : Payload) :
    T.Steady (v.putSegment path (Segment.name name sequence) content) fun _ => True :=
  steady_put_at (segmentsContainer_mem hv) (T.closed h Segment.startsWith_name)

theorem putSegments_steady (hv : v.IsOf T) (h : T.Inside name) (sequence : Nat) (pieces : List Payload) :
    T.Steady (v.putSegments path name sequence pieces) fun _ => True := by
  induction pieces generalizing sequence with
  | nil => exact steady_pure trivial
  | cons piece rest ih => exact (putSegment_steady hv h sequence piece).bind fun _ _ => ih (sequence + 1)

theorem getSegment_steady (h : T.Inside name) (sequence : Nat) (range : Option ByteRange) :
    T.Steady ((StoreCall.get v.segmentsContainer (Segment.name name sequence) range).at path) fun _ => True := by
  have hget : (StoreCall.get v.segmentsContainer (Segment.name name sequence) range).Within T :=
    T.closed h Segment.startsWith_name
  exact steady_at hget fun _ => rfl

theorem putManifest_steady (hv : v.IsOf T) (h : T.Inside name) :
    T.Steady (v.putManifest path name) fun _ => True :=
  steady_at ⟨container_mem hv, h, fun _ href => (Option.some.inj href).symm⟩ fun _ => rfl

theorem pad_steady (hv : v.IsOf T) (h : T.Inside name) (plan : WritePlan) :
    T.Steady (v.pad path name plan) fun _ => True := by
  have hzeros : T.Steady (v.putZeros path name plan.zeroSegments) fun _ => True :=
    (steady_forIn fun s _ => putSegment_steady hv h s _).bind fun _ _ => steady_pure trivial
  have hread : ∀ tail, T.Steady (v.readTail path name tail) fun _ => True := by
    intro tail
    unfold readTail
    split
    · exact steady_pure trivial
    · exact getSegment_steady h _ _
  rw [pad_eq]
  split
  · next tail _ =>
    have hfill : T.Steady (v.fillTail path name tail) fun _ => True :=
      (hread tail).bind fun _ _ => putSegment_steady hv h _ _
    exact hfill.bind fun _ _ => hzeros
  · exact hzeros

theorem segmentHead_steady (h : T.Inside name) (sequence retained zeroFill : Nat) :
    T.Steady (v.segmentHead path (Segment.name name sequence) retained zeroFill) fun _ => True := by
  unfold segmentHead
  dsimp only
  split
  · rw [pure_bind]
    exact steady_pure trivial
  · exact (getSegment_steady h _ _).bind fun _ _ => steady_pure trivial

theorem commitSegment_steady (hv : v.IsOf T) (h : T.Inside name) (sequence oldLength : Nat)
    (head data : Payload) (last commit : Bool) :
    T.Steady (v.commitSegment path (Segment.name name sequence) oldLength head data last commit)
      fun _ => True := by
  unfold commitSegment
  dsimp only
  split
  · split
    · exact (getSegment_steady h _ _).bind fun _ _ => putSegment_steady hv h sequence _
    · rw [pure_bind]
      exact putSegment_steady hv h sequence _
  · exact steady_pure trivial

theorem writeFrom_steady (hv : v.IsOf T) (h : T.Inside name) (existing : Array Nat)
    (sequence retained zeroFill written : Nat) (source : Source) :
    T.SteadyProgram (v.writeFrom path name existing sequence retained zeroFill written source) fun _ => True := by
  induction hremaining : source.remaining using Nat.strongRecOn
    generalizing sequence retained zeroFill written source with
  | _ remaining ih =>
    rw [writeFrom]
    refine SteadyProgram.bind (segmentHead_steady h _ _ _) fun head _ => ?_
    split
    · exact steadyProgram_done trivial
    next head =>
    dsimp only
    split
    · exact steadyProgram_done trivial
    next data rest hread =>
    refine SteadyProgram.bind (commitSegment_steady hv h _ _ _ _ _ _) fun committed _ => ?_
    split
    · exact steadyProgram_done trivial
    split
    · exact steadyProgram_done trivial
    next hmore =>
    have hless : rest.remaining < remaining := hremaining ▸ Source.remaining_lt_of_read hread hmore
    exact ih rest.remaining hless _ _ _ _ rest rfl

theorem convert_steady (hv : v.IsOf T) (h : T.Inside name) (size : Nat) :
    T.Steady (v.convert path name size) fun _ => True := by
  have hrest : ∀ content, T.Steady (v.keepInSegments path name content) fun _ => True := by
    intro content
    refine (clearSegments_steady hv h).bind fun _ _ => ?_
    refine (putSegments_steady hv h 1 _).bind fun _ _ => ?_
    exact (putManifest_steady hv h).bind fun _ _ => steady_pure trivial
  have hget : (StoreCall.get v.container name none).Within T := h
  rw [convert_eq]
  split
  · exact hrest _
  · exact (steady_at hget fun _ => rfl).bind fun content _ => hrest content

/-! ## Paths -/

theorem prepare_steady (hv : v.IsOf T) (h : T.Covers v path) (hpath : Path.isBelowRoot path = true) :
    T.Steady (v.prepare path) fun _ => True := by
  have hname := h.name hpath
  refine steady_try_bind hname (fun reply => ?_) fun reply _ => ?_
  · cases reply <;> rfl
  split
  · refine (makeParents_steady hv (h.parents hpath)).bind fun _ _ => ?_
    refine (clearSegments_steady hv hname).bind fun _ _ => ?_
    exact (putManifest_steady hv hname).bind fun _ _ => steady_pure trivial
  · exact steady_throw _
  split
  · exact (segments_steady hv hname).bind fun _ _ => steady_pure trivial
  split
  · exact steady_throw _
  · exact convert_steady hv hname _

theorem write_steady (hv : v.IsOf T) (h : T.Covers v path) (offset : Nat) (source : Source) :
    T.SteadyProgram (v.write path offset source) fun _ => True := by
  have hbegin : T.Steady (v.beginWrite path offset) fun _ => Path.isBelowRoot path = true := by
    refine checkPath_bind_steady fun hpath => ?_
    rw [Bool.false_and, Bool.or_false] at hpath
    refine (prepare_steady hv h hpath).bind fun lengths _ => ?_
    exact (pad_steady hv (h.name hpath) _).bind fun _ _ => steady_pure hpath
  refine SteadyProgram.bind hbegin fun r hr => ?_
  split
  · exact steadyProgram_done trivial
  · exact writeFrom_steady hv (h.name (hr _ rfl)) _ _ _ _ _ source

/-- The segments of an object that is replaced or moved away. -/
theorem removeFound_steady (hv : v.IsOf T) (h : T.Inside name) {found : Option ManifestRef}
    (hfound : ∀ ref, found = some ref → ref = v.manifestRef name) :
    T.Steady (removeFound path found) fun _ => True := by
  cases found with
  | none => exact steady_pure trivial
  | some ref =>
    obtain rfl := hfound ref rfl
    exact removeManifest_steady hv h

theorem writeAll_steady (hv : v.IsOf T) (h : T.Covers v path) (content : Payload) :
    T.Steady (v.writeAll path content) fun _ => True := by
  refine checkPath_bind_steady fun hpath => ?_
  rw [Bool.false_and, Bool.or_false] at hpath
  have hname := h.name hpath
  refine (makeParents_steady hv (h.parents hpath)).bind fun _ _ => ?_
  refine (manifestAt_steady hname).bind fun previous hprevious => ?_
  refine (steady_put_at (container_mem hv) hname).bind fun _ _ => ?_
  exact removeFound_steady hv hname hprevious

theorem moveObject_steady {source target : String} {moved : Option ManifestRef} (hv : v.IsOf T)
    (hsource : T.Inside (v.storeName source)) (htarget : T.Inside (v.storeName target))
    (hmoved : ∀ ref, moved = some ref → ref = v.manifestRef (v.storeName source)) :
    T.Steady (v.moveObject source target moved) fun _ => True := by
  have hcopy : (StoreCall.copy ⟨v.container, v.storeName source⟩ ⟨v.container, v.storeName target⟩).Within T :=
    ⟨hsource, container_mem hv, htarget⟩
  have hdelete : (StoreCall.delete v.container (v.storeName source)).Within T := hsource
  refine (manifestAt_steady htarget).bind fun replaced hreplaced => ?_
  refine (steady_at hcopy fun _ => rfl).bind fun _ _ => ?_
  refine (steady_at hdelete fun _ => rfl).bind fun _ _ => ?_
  refine (removeFound_steady hv hsource hmoved).bind fun _ _ => ?_
  exact removeFound_steady hv htarget hreplaced

theorem move_steady {source target : String} (hv : v.IsOf T) (hsource : T.Covers v source)
    (htarget : T.Covers v target) : T.Steady (v.move source target) fun _ => True := by
  refine checkPath_bind_steady fun hpath => ?_
  refine checkPath_bind_steady fun hpath' => ?_
  rw [Bool.false_and, Bool.or_false] at hpath hpath'
  have hname := hsource.name hpath
  refine steady_at_bind hname (fun info info' hinfo => ?_) fun info hinfo => ?_
  · cases hinfo
    rfl
  dsimp only
  split
  · exact steady_pure trivial
  refine (makeParents_steady hv (htarget.parents hpath')).bind fun _ _ => ?_
  have hmove : T.Steady (v.moveObject source target info.manifest) fun _ => True :=
    moveObject_steady hv hname (htarget.name hpath') fun ref => hinfo info ref rfl
  rw [moveObject_eq] at hmove
  exact hmove

/-! ## Reading -/

theorem readAll_steady (h : T.Covers v path) : T.Steady (v.readAll path) fun _ => True := by
  refine checkPath_bind_steady fun hpath => ?_
  rw [Bool.false_and, Bool.or_false] at hpath
  have hget : (StoreCall.get v.container (v.storeName path) none).Within T := h.name hpath
  exact steady_at hget fun _ => rfl

theorem readFrom_steady (h : T.Covers v path) (offset : Nat) :
    T.Steady (v.readFrom path offset) fun _ => True := by
  refine checkPath_bind_steady fun hpath => ?_
  rw [Bool.false_and, Bool.or_false] at hpath
  have hopen : (StoreCall.openFrom v.container (v.storeName path) offset).Within T := h.name hpath
  refine steady_try_bind hopen (fun _ => rfl) fun reply _ => ?_
  split
  · exact steady_pure trivial
  · exact steady_pure trivial
  · exact steady_throw _

theorem checkReachable_steady (h : T.Covers v probePath) : T.Steady v.checkReachable fun _ => True := by
  have hhead : (StoreCall.head v.container (v.storeName probePath)).Within T := h.name (by decide)
  refine steady_try_bind hhead (fun reply => ?_) fun reply _ => ?_
  · cases reply <;> rfl
  · split
    · exact steady_pure trivial
    · exact steady_pure trivial
    · exact steady_throw _

/-- The listing of a directory, and the directory itself if nothing is in it. -/
theorem children_steady (hv : v.IsOf T) (h : T.Covers v path) : T.Steady (v.children path) fun _ => True := by
  refine checkPath_bind_steady fun hpath => ?_
  have hdirectory := h.directory hpath
  dsimp only
  generalize v.storeDirectory path = directory at hdirectory
  have hempty : ¬directory.isEmpty = true := fun hempty => T.ne_empty hdirectory (String.isEmpty_iff.1 hempty)
  rw [if_neg hempty]
  have hlist : (StoreCall.list v.container (.folded (directory ++ "/") '/')).Within T :=
    ⟨container_mem hv, fun n => T.closed hdirectory⟩
  refine steady_at_bind hlist (fun infos infos' hinfos => ?_) fun infos _ => ?_
  · cases hinfos
    rw [List.filter_map, List.map_map]
    rfl
  split
  · next hcheck =>
    have hbelow : Path.isBelowRoot path = true := by
      rw [Bool.and_eq_true, bne_iff_ne] at hcheck
      simpa [hcheck.2] using hpath
    have hhead : (StoreCall.head v.container (v.storeName path)).Within T := h.name hbelow
    refine steady_at_bind hhead (fun info info' hinfo => rfl) fun info _ => ?_
    exact steady_pure trivial
  · exact steady_pure trivial

/-- The description of a file, but for the time of the last change. -/
def FileInfo.timeless (info : FileInfo) : FileInfo := { info with modified := .epoch }

theorem stat_steady (h : T.Covers v path) : T.Steady (FileInfo.timeless <$> v.stat path) fun _ => True := by
  have hstat : FileInfo.timeless <$> v.stat path = checkPath path false >>= fun _ =>
      (StoreCall.head v.container (v.storeName path)).at path >>= fun info =>
        pure (FileInfo.timeless ⟨path, info.bytes, info.contentType == directoryType, info.lastModified⟩) := by
    simp only [stat, map_bind, map_pure]
  rw [hstat]
  refine checkPath_bind_steady fun hpath => ?_
  rw [Bool.false_and, Bool.or_false] at hpath
  refine steady_at_bind (h.name hpath) (fun info info' hinfo => ?_) fun info _ => steady_pure trivial
  cases hinfo
  rfl

end Volume

/-! ## All operations -/

/-- An operation on the files of a volume. -/
inductive VolumeCall where
  | readAll (path : String)
  | readFrom (path : String) (offset : Nat)
  | write (path : String) (offset : Nat) (source : Source)
  | writeAll (path : String) (content : Payload)
  | stat (path : String)
  | children (path : String)
  | move (source target : String)
  | remove (path : String)
  | checkReachable

namespace VolumeCall

abbrev Reply : VolumeCall → Type
  | .readAll _ => Except VolumeError Payload
  | .readFrom _ _ => Except VolumeError ByteStream
  | .write _ _ _ => Except WriteFailure Nat
  | .writeAll _ _ => Except VolumeError Unit
  | .stat _ => Except VolumeError Volume.FileInfo
  | .children _ => Except VolumeError (List String)
  | .move _ _ => Except VolumeError Unit
  | .remove _ => Except VolumeError Unit
  | .checkReachable => Except VolumeError Unit

def perform (v : Volume) : (call : VolumeCall) → StoreProgram call.Reply
  | .readAll path => (v.readAll path).run
  | .readFrom path offset => (v.readFrom path offset).run
  | .write path offset source => v.write path offset source
  | .writeAll path content => (v.writeAll path content).run
  | .stat path => (v.stat path).run
  | .children path => (v.children path).run
  | .move source target => (v.move source target).run
  | .remove path => (v.remove path).run
  | .checkReachable => v.checkReachable.run

/-- The reply, but for the time of the last change. -/
def timeless : (call : VolumeCall) → call.Reply → call.Reply
  | .readAll _, reply => reply
  | .readFrom _ _, reply => reply
  | .write _ _ _, reply => reply
  | .writeAll _ _, reply => reply
  | .stat _, reply => reply.map Volume.FileInfo.timeless
  | .children _, reply => reply
  | .move _ _, reply => reply
  | .remove _, reply => reply
  | .checkReachable, reply => reply

/-- The paths that an operation is about. -/
def paths : VolumeCall → List String
  | .readAll path => [path]
  | .readFrom path _ => [path]
  | .write path _ _ => [path]
  | .writeAll path _ => [path]
  | .stat path => [path]
  | .children path => [path]
  | .move source target => [source, target]
  | .remove path => [path]
  | .checkReachable => [Volume.probePath]

/-- What comes of an operation at some time: the reply, and the store after it. -/
def performAt (call : VolumeCall) (v : Volume) (m : MemoryStore) (time : Timestamp) :
    call.Reply × MemoryStore :=
  (call.perform v).runOn answer (m.atTime time)

variable {T : Territory} {v : Volume}

theorem steadyProgram_perform (hv : v.IsOf T) {call : VolumeCall} (h : ∀ path ∈ call.paths, T.Covers v path)
    (hstat : ∀ path, call ≠ .stat path) : T.SteadyProgram (call.perform v) fun _ => True := by
  have hrun {α : Type} {x : VolumeAction α} (hx : T.Steady x fun _ => True) :
      T.SteadyProgram x.run fun _ => True :=
    fun s t hst => ⟨(hx s t hst).1, trivial, (hx s t hst).2.2⟩
  cases call with
  | readAll path => exact hrun (Volume.readAll_steady (h path List.mem_cons_self))
  | readFrom path offset => exact hrun (Volume.readFrom_steady (h path List.mem_cons_self) offset)
  | write path offset source => exact Volume.write_steady hv (h path List.mem_cons_self) offset source
  | writeAll path content => exact hrun (Volume.writeAll_steady hv (h path List.mem_cons_self) content)
  | stat path => exact absurd rfl (hstat path)
  | children path => exact hrun (Volume.children_steady hv (h path List.mem_cons_self))
  | move source target =>
    exact hrun (Volume.move_steady hv (h source List.mem_cons_self)
      (h target (List.mem_cons_of_mem _ List.mem_cons_self)))
  | remove path => exact hrun (Volume.remove_steady hv (h path List.mem_cons_self))
  | checkReachable => exact hrun (Volume.checkReachable_steady (h _ List.mem_cons_self))

/-- In a territory that covers its paths, an operation sees nothing of the rest of the store and changes nothing there.
-/
theorem steady_perform (hv : v.IsOf T) {call : VolumeCall} (h : ∀ path ∈ call.paths, T.Covers v path) :
    T.SteadyProgram (Interaction.bind (call.perform v) fun reply => .done (call.timeless reply)) fun _ => True := by
  by_cases hstat : ∃ path, call = .stat path
  · obtain ⟨path, rfl⟩ := hstat
    have hmap : Interaction.bind (perform v (.stat path)) (fun reply => .done (timeless (.stat path) reply))
        = (Volume.FileInfo.timeless <$> v.stat path).run := by
      refine congrArg (Interaction.bind (v.stat path).run) (funext fun reply => ?_)
      cases reply <;> rfl
    rw [hmap]
    intro s t hst
    obtain ⟨hresult, -, hmoves⟩ := Volume.stat_steady (h path List.mem_cons_self) s t hst
    exact ⟨hresult, trivial, hmoves⟩
  · exact (steadyProgram_perform hv h fun path hcall => hstat ⟨path, hcall⟩).bind fun _ _ =>
      Territory.steadyProgram_done trivial

/-- Whatever the time is. -/
theorem performAt_steady (call : VolumeCall) (hv : v.IsOf T) (h : ∀ path ∈ call.paths, T.Covers v path)
    {s t : MemoryStore} (hst : T.Agree s t) (time time' : Timestamp) :
    call.timeless (call.performAt v s time).1 = call.timeless (call.performAt v t time').1 ∧
      T.Moves s t (call.performAt v s time).2 (call.performAt v t time').2 := by
  obtain ⟨hreply, -, hmoves⟩ := steady_perform hv h _ _ (hst.atTime time time')
  have hrun : ∀ m, StoreProgram.runOn (Interaction.bind (call.perform v)
      fun reply => .done (call.timeless reply)) answer m
        = (call.timeless ((call.perform v).runOn answer m).1, ((call.perform v).runOn answer m).2) :=
    fun m => Interaction.run_bind answer (call.perform v) _ m
  rw [hrun, hrun] at hreply hmoves
  exact ⟨hreply, hmoves.ofTime⟩

end VolumeCall

end SegmentedFiles
