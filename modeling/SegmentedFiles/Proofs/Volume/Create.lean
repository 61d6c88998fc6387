import SegmentedFiles.Proofs.Volume.Keeps

/-! # New volumes

A volume is made on a store by making its two containers. Whether it is made depends on the options alone
(`create_runOn_cases`). On a store without containers nothing is found in them. -/

namespace SegmentedFiles

/-- The store with a container of this name and one for its segments. -/
def MemoryStore.withContainersOf (m : MemoryStore) (container : String) : MemoryStore :=
  (m.withContainer container).withContainer (Segment.containerOf container)

namespace Volume

open MemoryStore (answer)
open VolumeAction

variable {options : VolumeOptions} {bulk : Bool} {now : Timestamp}

/-- The store in memory on which nothing but a volume's containers has been made. -/
def fresh (container : String) (bulk : Bool) (now : Timestamp) : MemoryStore :=
  ((MemoryStore.empty bulk now).withContainer container).withContainer (Segment.containerOf container)

/-- Making a volume on a store without containers. -/
theorem create_runOn (hcontainer : options.container.isEmpty = false) (hchunk : 0 < options.chunkSize) :
    (create options).runOn answer (MemoryStore.empty bulk now) =
      (.ok ⟨options.container, options.root, options.chunkSize, hchunk, bulk⟩,
        fresh options.container bulk now) := by
  have hbulk : (fresh options.container bulk now).bulkDelete = bulk := by
    simp [fresh, MemoryStore.empty]
  unfold create
  rw [hcontainer, if_neg (by simp), dif_neg (by omega)]
  simp only [List.forIn_cons, List.forIn_nil]
  show (Except.ok (⟨_, _, _, _, (fresh options.container bulk now).bulkDelete⟩ : Volume), _) = _
  rw [hbulk]
  rfl

/-- A volume is made whatever is in the store, if the options are for one. If they are not, the store stays as it is.
-/
theorem create_runOn_cases (options : VolumeOptions) :
    (∃ e, ∀ m, (create options).runOn answer m = (.error e, m)) ∨
      ∃ hchunk : 0 < options.chunkSize, ∀ m : MemoryStore, (create options).runOn answer m =
        (.ok ⟨options.container, options.root, options.chunkSize, hchunk, m.bulkDelete⟩,
          m.withContainersOf options.container) := by
  unfold create
  by_cases hcontainer : options.container.isEmpty = true
  · rw [if_pos hcontainer]
    exact .inl ⟨_, fun _ => rfl⟩
  rw [if_neg hcontainer]
  by_cases hchunk : options.chunkSize = 0
  · rw [dif_pos hchunk]
    exact .inl ⟨_, fun _ => rfl⟩
  rw [dif_neg hchunk]
  refine .inr ⟨Nat.pos_of_ne_zero hchunk, fun m => ?_⟩
  have hbulk : (m.withContainersOf options.container).bulkDelete = m.bulkDelete := by
    simp [MemoryStore.withContainersOf]
  simp only [List.forIn_cons, List.forIn_nil]
  show (Except.ok (⟨_, _, _, _, (m.withContainersOf options.container).bulkDelete⟩ : Volume), _) = _
  rw [hbulk]
  rfl

/-- Whichever calls fail, a volume that is made has its containers and nothing else. -/
theorem create_ensures {fails : StoreCall → Prop} :
    Ensures (answer.mayFail fails) (create options) (MemoryStore.empty bulk now)
      (fun v t => t = fresh v.container bulk now) fun _ _ => True := by
  unfold create
  dsimp only
  split
  · exact ensures_throw trivial
  split
  · exact ensures_throw trivial
  refine (ensures_forIn (fun rest t => ∃ done,
    [options.container, Segment.containerOf options.container] = done ++ rest ∧
      t = done.foldl MemoryStore.withContainer (MemoryStore.empty bulk now)) ⟨[], rfl, rfl⟩ ?_).bind ?_
  · intro container rest t ht
    obtain ⟨done, hdone, rfl⟩ := ht
    refine ensures_try_bind MemoryStore.answer_createContainer ?_ fun _ _ _ => ensures_throw trivial
    refine ensures_pure ⟨rfl, done ++ [container], by rw [hdone, List.append_assoc]; rfl, ?_⟩
    rw [List.foldl_append]
    rfl
  · intro _ t ht
    obtain ⟨done, hdone, rfl⟩ := ht
    rw [List.append_nil] at hdone
    subst hdone
    exact ensures_try_bind rfl (ensures_pure rfl) fun _ _ _ => ensures_pure rfl

/-- A volume with segments of four bytes. -/
def sampleVolume : Volume := ⟨"files", "", 4, by decide, true⟩

theorem create_sampleVolume :
    (create ⟨"files", "", 4⟩).runOn answer (MemoryStore.empty true Timestamp.epoch) =
      (.ok sampleVolume, fresh "files" true Timestamp.epoch) :=
  create_runOn (by decide) (by decide)

theorem object?_fresh (container : String) (bulk : Bool) (now : Timestamp) (c n : String) :
    (fresh container bulk now).object? c n = none := by
  rw [fresh, MemoryStore.object?_withContainer, MemoryStore.object?_withContainer]
  simp [MemoryStore.object?, MemoryStore.objects, MemoryStore.empty]

theorem ready_fresh (v : Volume) (bulk : Bool) (now : Timestamp) :
    v.Ready (fresh v.container bulk now) := by
  refine ⟨?_, ?_, ?_⟩
  · exact MemoryStore.mem_containers_withContainer.2
      (.inr (MemoryStore.mem_containers_withContainer.2 (.inl rfl)))
  · exact MemoryStore.mem_containers_withContainer.2 (.inl rfl)
  · simp [fresh, MemoryStore.empty]

end Volume

end SegmentedFiles
