import SegmentedFiles.Proofs.Store.Nested
import SegmentedFiles.Store.Memory

/-! # What is in the store in memory after a call

A state of the store is known by `object?`, what is found under a name of a container. Each call that
changes the store is one of two changes, `place` and `vacate`, and each of these is known by what it
does to `object?`. What a listing shows and what a manifest reads as are both taken from `under`, the
objects whose names start with a given text, in name order. -/

namespace SegmentedFiles.MemoryStore

/-- The store with `object` under a name of a container. -/
def place (m : MemoryStore) (container name : String) (object : StoredObject) : MemoryStore :=
  { m with containers := m.containers.insert container ((m.objects container).insert name object) }

/-- The store with nothing under a name of a container. -/
def vacate (m : MemoryStore) (container name : String) : MemoryStore :=
  { m with containers := m.containers.insert container ((m.objects container).erase name) }

/-- The object that a put makes. -/
def written (m : MemoryStore) (content : Payload) (options : PutOptions) : StoredObject :=
  ⟨content, options.contentType, m.now, Md5.hexDigest content, options.manifest⟩

variable {m : MemoryStore} {c c' n n' : String} {o : StoredObject}

theorem objects_of_getElem? {objects : ObjectMap} (h : m.containers[c]? = some objects) :
    m.objects c = objects := by
  rw [MemoryStore.objects, Std.ExtTreeMap.getD_eq_getD_getElem?, h, Option.getD_some]

theorem getElem?_containers (h : c ∈ m.containers) : m.containers[c]? = some (m.objects c) := by
  obtain ⟨objects, hobjects⟩ := Option.isSome_iff_exists.1
    (Std.ExtTreeMap.mem_iff_isSome_getElem?.1 h)
  rw [hobjects, objects_of_getElem? hobjects]

/-! ## The two changes -/

theorem object?_place :
    (m.place c n o).object? c' n' = if c' = c ∧ n' = n then some o else m.object? c' n' :=
  getElem?_getD_insert

theorem object?_vacate :
    (m.vacate c n).object? c' n' = if c' = c ∧ n' = n then none else m.object? c' n' :=
  getElem?_getD_erase

@[simp] theorem object?_place_self : (m.place c n o).object? c n = some o := by
  rw [object?_place, if_pos ⟨rfl, rfl⟩]

@[simp] theorem object?_vacate_self : (m.vacate c n).object? c n = none := by
  rw [object?_vacate, if_pos ⟨rfl, rfl⟩]

theorem object?_place_of_ne (h : ¬(c' = c ∧ n' = n)) :
    (m.place c n o).object? c' n' = m.object? c' n' := by
  rw [object?_place, if_neg h]

theorem object?_vacate_of_ne (h : ¬(c' = c ∧ n' = n)) :
    (m.vacate c n).object? c' n' = m.object? c' n' := by
  rw [object?_vacate, if_neg h]

theorem mem_containers_place (h : c' ∈ m.containers) : c' ∈ (m.place c n o).containers :=
  Std.ExtTreeMap.mem_insert.2 (.inr h)

theorem mem_containers_vacate (h : c' ∈ m.containers) : c' ∈ (m.vacate c n).containers :=
  Std.ExtTreeMap.mem_insert.2 (.inr h)

theorem mem_containers_of_object? (h : m.object? c n = some o) : c ∈ m.containers :=
  mem_of_getElem?_getD h

/-! ## Containers -/

/-- The store with a container of this name. -/
def withContainer (m : MemoryStore) (container : String) : MemoryStore :=
  if m.containers.contains container then m
  else { m with containers := m.containers.insert container ∅ }

theorem answer_createContainer :
    answer (.createContainer c) m = (.ok (), m.withContainer c) :=
  rfl

theorem containers_withContainer : (m.withContainer c).containers =
    if m.containers.contains c then m.containers else m.containers.insert c ∅ := by
  unfold withContainer
  split <;> rfl

@[simp] theorem putBudget_withContainer : (m.withContainer c).putBudget = m.putBudget := by
  unfold withContainer
  split <;> rfl

@[simp] theorem bulkFault_withContainer : (m.withContainer c).bulkFault = m.bulkFault := by
  unfold withContainer
  split <;> rfl

@[simp] theorem bulkDelete_withContainer : (m.withContainer c).bulkDelete = m.bulkDelete := by
  unfold withContainer
  split <;> rfl

theorem mem_containers_withContainer :
    c' ∈ (m.withContainer c).containers ↔ c' = c ∨ c' ∈ m.containers := by
  rw [containers_withContainer]
  split
  · next hc =>
    have hmem := Std.ExtTreeMap.mem_iff_contains.2 hc
    exact ⟨.inr, fun h => h.elim (fun hsame => hsame ▸ hmem) id⟩
  · rw [Std.ExtTreeMap.mem_insert, Std.LawfulEqCmp.compare_eq_iff_eq, eq_comm]

theorem object?_withContainer : (m.withContainer c).object? c' n = m.object? c' n := by
  simp only [object?, MemoryStore.objects, containers_withContainer]
  split
  · rfl
  · next hc =>
    rw [Std.ExtTreeMap.getD_insert]
    split
    · next heq =>
      rw [Std.LawfulEqCmp.compare_eq_iff_eq] at heq
      subst heq
      rw [Std.ExtTreeMap.getD_eq_fallback_of_contains_eq_false (Bool.not_eq_true _ ▸ hc)]
    · rfl

theorem withContainer_of_mem (h : c ∈ m.containers) : m.withContainer c = m :=
  if_pos (Std.ExtTreeMap.mem_iff_contains.1 h)

/-! ## Calls that change the store -/

theorem answer_put {body : Payload} {options : PutOptions} (hc : c ∈ m.containers)
    (hputs : m.putBudget = none) :
    answer (.put c n body options) m = (.ok (), m.place c n (m.written body options)) := by
  have htake : m.takePut = .ok m := by
    simp only [takePut, hputs]
  simp only [answer, htake, insert, getElem?_containers hc, orUnchanged]
  rfl

theorem answer_put_of_not_mem {body : Payload} {options : PutOptions} (hc : c ∉ m.containers)
    (hputs : m.putBudget = none) : answer (.put c n body options) m = (.error .notFound, m) := by
  simp only [answer, takePut, hputs, insert, Std.ExtTreeMap.getElem?_eq_none hc, orUnchanged]

theorem object?_of_not_mem (hc : c ∉ m.containers) : m.object? c n = none := by
  rw [object?, MemoryStore.objects, Std.ExtTreeMap.getD_eq_fallback hc]
  exact Std.ExtTreeMap.getElem?_empty

theorem erase?_of_some (h : m.object? c n = some o) : m.erase? c n = some (m.vacate c n) := by
  have hn : (m.objects c).contains n = true := by
    rw [Std.ExtTreeMap.contains_eq_isSome_getElem?]
    exact Option.isSome_iff_exists.2 ⟨o, h⟩
  simp only [erase?, getElem?_containers (mem_containers_of_object? h), hn, if_true]
  rfl

theorem erase?_of_none (h : m.object? c n = none) : m.erase? c n = none := by
  unfold erase?
  split
  · rfl
  · next objects hc =>
    rw [object?, objects_of_getElem? hc] at h
    rw [Std.ExtTreeMap.contains_eq_isSome_getElem?, h]
    rfl

theorem answer_delete_of_some (h : m.object? c n = some o) :
    answer (.delete c n) m = (.ok (), m.vacate c n) := by
  simp only [answer, erase?_of_some h, orUnchanged]

theorem answer_delete_of_none (h : m.object? c n = none) :
    answer (.delete c n) m = (.error .notFound, m) := by
  simp only [answer, erase?_of_none h, orUnchanged]

theorem answer_copy {source target : ObjectTarget}
    (h : m.object? source.container source.name = some o) (hc : target.container ∈ m.containers) :
    answer (.copy source target) m = (.ok (), m.place target.container target.name
      (m.written (m.resolve o) (PutOptions.plain o.contentType))) := by
  simp only [answer, h, insert, getElem?_containers hc, orUnchanged]
  rfl

/-! ## Calls that leave the store as it is -/

theorem answer_head_of_some (h : m.object? c n = some o) :
    answer (.head c n) m = (.ok (o.info n (m.resolve o).size), m) := by
  simp only [answer, h]

theorem answer_head_of_none (h : m.object? c n = none) :
    answer (.head c n) m = (.error .notFound, m) := by
  simp only [answer, h]

theorem answer_get (h : m.object? c n = some o) :
    answer (.get c n none) m = (.ok (m.resolve o), m) := by
  simp only [answer, read, h]

theorem answer_get_bounded {start stop : Nat} (h : m.object? c n = some o) (hlt : start < stop)
    (hstop : stop ≤ (m.resolve o).size) :
    answer (.get c n (some (.bounded start stop))) m
      = (.ok ((m.resolve o).extract start stop), m) := by
  have hresolve : (ByteRange.bounded start stop).resolve? (m.resolve o).size
      = some (start, stop) := by
    have hmax : max start (min stop (m.resolve o).size) = stop := by omega
    unfold ByteRange.resolve?
    split
    · next hle => exact absurd hle (Nat.not_le.2 (Nat.lt_of_lt_of_le hlt hstop))
    · simp only [ByteRange.bounded, hmax]
  simp only [answer, read, h, hresolve]

/-! ## The objects whose names start with a text -/

/-- The objects of a container whose names start with `start`, in name order. -/
def under (m : MemoryStore) (container start : String) : List (String × StoredObject) :=
  (m.objects container).toList.filter fun object => Text.startsWith object.1 start

theorem mem_under {start : String} :
    (n, o) ∈ m.under c start ↔ m.object? c n = some o ∧ Text.startsWith n start = true := by
  rw [under, List.mem_filter, Std.ExtTreeMap.mem_toList_iff_getElem?_eq_some]
  rfl

theorem pairwise_under (m : MemoryStore) (c start : String) :
    (m.under c start).Pairwise fun a b => compare a.1 b.1 = .lt :=
  Std.ExtTreeMap.ordered_keys_toList.filter _

/-- Names in order are known by which names there are. -/
theorem names_eq_of_mem_iff {names names' : List String}
    (h : names.Pairwise fun a b => compare a b = .lt)
    (h' : names'.Pairwise fun a b => compare a b = .lt) (hmem : ∀ n, n ∈ names ↔ n ∈ names') :
    names = names' := by
  have : Std.Irrefl fun a b : String => compare a b = .lt :=
    ⟨fun a ha => by rw [Std.compare_self] at ha; cases ha⟩
  have : Std.Antisymm fun a b : String => compare a b = .lt :=
    ⟨fun a b hab hba => by
      have hgt := Std.OrientedCmp.gt_of_lt hba
      rw [hab] at hgt
      cases hgt⟩
  exact h.eq_of_mem_iff h' hmem

/-- If the same is found under all names that start with a text, so are the same objects. -/
theorem under_congr {t : MemoryStore} {start : String}
    (h : ∀ n, Text.startsWith n start = true → t.object? c n = m.object? c n) :
    t.under c start = m.under c start := by
  have hirrefl : ∀ a : String, compare a a ≠ .lt := by
    intro a ha
    rw [Std.compare_self] at ha
    cases ha
  have : Std.Irrefl fun a b : String × StoredObject => compare a.1 b.1 = .lt :=
    ⟨fun a => hirrefl a.1⟩
  have : Std.Antisymm fun a b : String × StoredObject => compare a.1 b.1 = .lt :=
    ⟨fun a b hab hba => absurd (Std.TransCmp.lt_trans hab hba) (hirrefl a.1)⟩
  refine (t.pairwise_under c start).eq_of_mem_iff (m.pairwise_under c start) ?_
  intro object
  rw [mem_under, mem_under]
  refine and_congr_left fun hstart => ?_
  rw [h _ hstart]

/-- A listing without a delimiter shows the objects whose names start with the text. -/
theorem select_all (start : String) (objects : List (String × ObjectInfo)) :
    (ListOptions.all start).select objects
      = (objects.filter fun object => Text.startsWith object.1 start).map Prod.snd := by
  have hgo : ∀ (groups : List String) (xs : List (String × ObjectInfo)),
      ListOptions.entries.go (ListOptions.all start) groups xs = xs.map Prod.snd := by
    intro groups xs
    induction xs with
    | nil => rfl
    | cons x rest ih =>
      simp only [ListOptions.entries.go, ListOptions.all, Option.bind_none, List.map_cons]
      exact congrArg _ ih
  exact hgo [] _

theorem answer_list_all {start : String} (hc : c ∈ m.containers) :
    answer (.list c (.all start)) m
      = (.ok ((m.under c start).map fun object => object.2.entry object.1), m) := by
  simp only [answer, getElem?_containers hc, select_all, under, List.filter_map, List.map_map]
  rfl

/-- A manifest reads as its segments joined. -/
theorem toList_resolve_of_manifest {ref : ManifestRef} (h : o.manifest = some ref) :
    (m.resolve o).data.toList
      = (m.under ref.container ref.start).flatMap fun object => object.2.content.data.toList := by
  have hfold : ∀ (xs : List (String × StoredObject)) (content : Payload),
      (xs.foldl (fun content segment =>
          if Text.startsWith segment.1 ref.start then content ++ segment.2.content else content)
        content).data.toList
        = content.data.toList ++ (xs.filter fun object => Text.startsWith object.1 ref.start).flatMap
            fun object => object.2.content.data.toList := by
    intro xs
    induction xs with
    | nil => simp
    | cons x rest ih =>
      intro content
      rw [List.foldl_cons, ih, List.filter_cons]
      split
      · simp [List.append_assoc]
      · rfl
  simp only [resolve, h, hfold, under]
  rfl

/-- What an object reads as depends on the objects that its manifest refers to. -/
theorem resolve_congr {t : MemoryStore} (h : ∀ ref, o.manifest = some ref → ∀ n,
    Text.startsWith n ref.start = true → t.object? ref.container n = m.object? ref.container n) :
    t.resolve o = m.resolve o := by
  cases hmanifest : o.manifest with
  | none => simp only [resolve, hmanifest]
  | some ref =>
    refine ByteArray.ext (Array.toList_inj.1 ?_)
    rw [toList_resolve_of_manifest hmanifest, toList_resolve_of_manifest hmanifest,
      under_congr (h ref hmanifest)]

theorem resolve_of_plain (h : o.manifest = none) : m.resolve o = o.content := by
  simp only [resolve, h]

end SegmentedFiles.MemoryStore
