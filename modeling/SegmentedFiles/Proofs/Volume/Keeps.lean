import SegmentedFiles.Proofs.Store.Places
import SegmentedFiles.Proofs.Volume.Parents

/-! # What a write keeps, whatever fails

Most of the steps of a write change nothing but segments of its file, whatever the store holds, so they
are within each relation that these changes are within (`SegmentFrame`). The manifest that it may put is
one of segments of its own name, so that manifests refer to their own segments is kept by each end of a
write (`write_keeps`). -/

namespace SegmentedFiles.Volume

open MemoryStore (answer)
open VolumeAction

variable {v : Volume} {m t : MemoryStore} {name path text : String} {fails : StoreCall → Prop}

/-! ## Changes to segments -/

/-- A relation between the states before and after that holds of operations in a row if it holds of each,
and of each change to a segment of the object called `name`. -/
structure SegmentFrame (v : Volume) (name : String) (R : MemoryStore → MemoryStore → Prop) : Prop where
  refl : ∀ m, R m m
  trans : ∀ m t u, R m t → R t u → R m u
  put : ∀ m s body options,
    R m (answer (.put v.segmentsContainer (Segment.name name s) body options) m).2
  delete : ∀ m s, R m (answer (.delete v.segmentsContainer (Segment.name name s)) m).2

theorem segmentFrame_segmentsChanged (v : Volume) (name : String) :
    v.SegmentFrame name fun m t => v.Ready m → v.SegmentsChanged name m t := by
  have hframe := v.frame_segmentsChanged name
  refine ⟨hframe.whenReady_refl, hframe.whenReady_trans, fun m s body options hm => ?_, fun m s _ => ?_⟩
  · rw [MemoryStore.answer_put hm.segments hm.putBudget]
    exact .place v name m s _
  · rcases MemoryStore.answer_delete_cases m v.segmentsContainer (Segment.name name s) with
      ⟨hanswer, -⟩ | ⟨hanswer, -⟩
    · rw [hanswer]
      exact .vacate v name m s
    · rw [hanswer]
      exact .refl v name m

/-- The segments of the object called `name` among what a listing shows. -/
def entriesOf (name : String) (infos : List ObjectInfo) : List SegmentEntry :=
  (infos.filterMap fun info =>
    (Segment.sequence? (Segment.start name) info.name).map fun sequence =>
      ⟨sequence, info.name, info.bytes⟩).mergeSort fun a b => a.sequence ≤ b.sequence

theorem segments_eq (v : Volume) (path name : String) :
    v.segments path name =
      (StoreCall.list v.segmentsContainer (ListOptions.all (Segment.start name))).at path >>=
        fun infos => pure (entriesOf name infos) :=
  rfl

theorem name_of_mem_entriesOf {infos : List ObjectInfo} {entry : SegmentEntry}
    (h : entry ∈ entriesOf name infos) : entry.name = Segment.name name entry.sequence := by
  rw [entriesOf, List.mem_mergeSort, List.mem_filterMap] at h
  obtain ⟨info, -, hinfo⟩ := h
  obtain ⟨s, hs, rfl⟩ := Option.map_eq_some_iff.1 hinfo
  exact (Segment.sequence?_eq_some_iff.1 hs).1

namespace SegmentFrame

variable {R : MemoryStore → MemoryStore → Prop}

theorem pure {α : Type} (h : v.SegmentFrame name R) (a : α) :
    Preserves (answer.mayFail fails) R (Pure.pure a : VolumeAction α) :=
  preserves_pure h.refl a

theorem bind {α β : Type} (h : v.SegmentFrame name R) {x : VolumeAction β} {f : β → VolumeAction α}
    (hx : Preserves (answer.mayFail fails) R x) (hf : ∀ b, Preserves (answer.mayFail fails) R (f b)) :
    Preserves (answer.mayFail fails) R (x >>= f) :=
  hx.bind h.refl h.trans hf

/-- Calls that only read. -/
theorem get_at (h : v.SegmentFrame name R) (container text : String) (range : Option ByteRange) :
    Preserves (answer.mayFail fails) R ((StoreCall.get container text range).at path) :=
  preserves_at_of_mayFail h.refl h.refl path

theorem list_at (h : v.SegmentFrame name R) (container : String) (options : ListOptions) :
    Preserves (answer.mayFail fails) R ((StoreCall.list container options).at path) :=
  preserves_at_of_mayFail h.refl h.refl path

theorem deleteQuietly (h : v.SegmentFrame name R) (s : Nat) :
    Preserves (answer.mayFail fails) R
      (Volume.deleteQuietly v.segmentsContainer (Segment.name name s) path) := by
  refine h.bind (preserves_try_of_mayFail h.refl fun m => h.delete m s) ?_
  intro reply
  split
  · exact h.pure _
  · exact h.pure _
  · exact preserves_throw h.refl _

theorem clearSegments (h : v.SegmentFrame name R) :
    Preserves (answer.mayFail fails) R (v.clearSegments path name) := by
  rw [Volume.clearSegments, segments_eq]
  simp only [bind_assoc, pure_bind]
  refine h.bind (h.list_at _ _) ?_
  intro infos
  refine h.bind (preserves_forIn h.refl h.trans ?_) fun _ => h.pure _
  intro entry hentry
  rw [name_of_mem_entriesOf hentry]
  exact h.deleteQuietly _

theorem putSegment (h : v.SegmentFrame name R) (s : Nat) (content : Payload) :
    Preserves (answer.mayFail fails) R (v.putSegment path (Segment.name name s) content) :=
  preserves_at_of_mayFail h.refl (fun m => h.put m s _ _) path

theorem putSegments (h : v.SegmentFrame name R) (sequence : Nat) (pieces : List Payload) :
    Preserves (answer.mayFail fails) R (v.putSegments path name sequence pieces) := by
  induction pieces generalizing sequence with
  | nil => exact h.pure _
  | cons piece rest ih => exact h.bind (h.putSegment sequence piece) fun _ => ih (sequence + 1)

theorem pad (h : v.SegmentFrame name R) (plan : WritePlan) :
    Preserves (answer.mayFail fails) R (v.pad path name plan) := by
  have hzeros : Preserves (answer.mayFail fails) R (v.putZeros path name plan.zeroSegments) :=
    h.bind (preserves_forIn h.refl h.trans fun s _ => h.putSegment s _) fun _ => h.pure _
  rw [pad_eq]
  split
  · refine h.bind (h.bind ?_ fun _ => h.putSegment _ _) fun _ => hzeros
    unfold readTail
    split
    · exact h.pure _
    · exact h.get_at _ _ _
  · exact hzeros

theorem segmentHead (h : v.SegmentFrame name R) (segment : String) (retained zeroFill : Nat) :
    Preserves (answer.mayFail fails) R (v.segmentHead path segment retained zeroFill) := by
  unfold Volume.segmentHead
  dsimp only
  split
  · exact h.bind (h.pure _) fun _ => h.pure _
  · exact h.bind (h.get_at _ _ _) fun _ => h.pure _

theorem commitSegment (h : v.SegmentFrame name R) (s oldLength : Nat) (head data : Payload)
    (last commit : Bool) : Preserves (answer.mayFail fails) R
      (v.commitSegment path (Segment.name name s) oldLength head data last commit) := by
  unfold Volume.commitSegment
  dsimp only
  split
  · split
    · exact h.bind (h.get_at _ _ _) fun _ => h.putSegment s _
    · exact h.bind (h.pure _) fun _ => h.putSegment s _
  · exact h.pure _

theorem writeFrom (h : v.SegmentFrame name R) (existing : Array Nat)
    (sequence retained zeroFill written : Nat) (source : Source) :
    Interaction.Preserves (answer.mayFail fails) R
      (v.writeFrom path name existing sequence retained zeroFill written source) := by
  have hdone : ∀ r : Except WriteFailure Nat, Interaction.Preserves (answer.mayFail fails) R (.done r) :=
    Interaction.preserves_done h.refl
  induction hremaining : source.remaining using Nat.strongRecOn
    generalizing sequence retained zeroFill written source with
  | _ remaining ih =>
    rw [Volume.writeFrom]
    refine Interaction.Preserves.bind h.trans (h.segmentHead _ _ _) ?_
    intro head
    split
    · exact hdone _
    next head =>
    dsimp only
    split
    · exact hdone _
    next data rest hread =>
    refine Interaction.Preserves.bind h.trans (h.commitSegment _ _ _ _ _ _) ?_
    intro committed
    split
    · exact hdone _
    split
    · exact hdone _
    next hmore =>
    exact ih rest.remaining (hremaining ▸ Source.remaining_lt_of_read hread hmore) _ _ _ _ rest rfl

end SegmentFrame

/-! ## The whole write -/

theorem SegmentsChanged.keeps {α : Type} {x : VolumeAction α}
    (h : v.KeepsTo (v.SegmentsChanged name) fails x) : v.KeepsTo v.OwnKept fails x :=
  h.mono fun _ _ => SegmentsChanged.ownKept

theorem putManifest_keeps (hname : name.toList.getLast? ≠ some '/') :
    v.KeepsTo v.OwnKept fails (v.putManifest path name) := by
  refine v.frame_ownKept.call_at ?_ path
  intro m hm
  rw [MemoryStore.answer_put hm.container hm.putBudget]
  exact .place hname rfl

theorem convert_keeps (hname : name.toList.getLast? ≠ some '/') (size : Nat) :
    v.KeepsTo v.OwnKept fails (v.convert path name size) := by
  have hframe := v.frame_ownKept
  have hrest : ∀ content, v.KeepsTo v.OwnKept fails (v.keepInSegments path name content) := by
    intro content
    refine hframe.bind (SegmentsChanged.keeps (v.segmentFrame_segmentsChanged _).clearSegments) fun _ => ?_
    refine hframe.bind (SegmentsChanged.keeps ((v.segmentFrame_segmentsChanged _).putSegments 1 _)) fun _ => ?_
    exact hframe.bind (putManifest_keeps hname) fun _ => hframe.pure _
  rw [convert_eq]
  split
  · exact hrest _
  · exact hframe.bind (hframe.get_at _ _ _ path) hrest

theorem makeParents_keeps : v.KeepsTo v.OwnKept fails (v.makeParents path) := by
  intro m r t ht hm
  have hmade := makeParents_ensures path hm r t ht
  cases r with
  | ok _ => exact hmade.ownKept
  | error _ => exact hmade.1.ownKept

theorem prepare_keeps (hpath : Path.isBelowRoot path = true) :
    v.KeepsTo v.OwnKept fails (v.prepare path) := by
  have hframe := v.frame_ownKept
  have hname : (v.storeName path).toList.getLast? ≠ some '/' := getLast?_storeName hpath
  unfold prepare
  refine hframe.bind (hframe.head_try _ _) ?_
  intro reply
  split
  · refine hframe.bind makeParents_keeps fun _ => ?_
    refine hframe.bind (SegmentsChanged.keeps (v.segmentFrame_segmentsChanged _).clearSegments) fun _ => ?_
    exact hframe.bind (putManifest_keeps hname) fun _ => hframe.pure _
  · exact hframe.throw _
  split
  · rw [segments_eq]
    refine hframe.bind ?_ fun _ => hframe.pure _
    exact hframe.bind (hframe.list_at _ _ path) fun _ => hframe.pure _
  split
  · exact hframe.throw _
  · exact convert_keeps hname _

/-- Whatever comes of a write where calls may fail, manifests refer to their own segments. -/
theorem write_keeps (path : String) (offset : Nat) (source : Source) :
    Interaction.Preserves (answer.mayFail fails) (fun m t => v.Ready m → v.OwnKept m t)
      (v.write path offset source) := by
  have hframe := v.frame_ownKept
  have hbegin : v.KeepsTo v.OwnKept fails (v.beginWrite path offset) := by
    unfold beginWrite checkPath
    split
    · next hpath =>
      refine hframe.bind (hframe.pure _) fun _ => ?_
      refine hframe.bind (prepare_keeps (by simpa using hpath)) fun _ => ?_
      exact hframe.bind (SegmentsChanged.keeps ((v.segmentFrame_segmentsChanged _).pad _)) fun _ => hframe.pure _
    · exact hframe.throw _
  refine Interaction.Preserves.bind hframe.whenReady_trans hbegin ?_
  intro r
  split
  · exact Interaction.preserves_done hframe.whenReady_refl _
  · intro m
    exact ((v.segmentFrame_segmentsChanged _).writeFrom _ _ _ _ _ _ m).mono fun _ _ ht hm => (ht hm).ownKept

end SegmentedFiles.Volume
