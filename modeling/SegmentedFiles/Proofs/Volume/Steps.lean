import SegmentedFiles.Proofs.Store.Lookup
import SegmentedFiles.Proofs.Volume.Action
import SegmentedFiles.Proofs.Volume.Source
import SegmentedFiles.Volume.Replace
import SegmentedFiles.Volume.Write

/-! # Operations step by step

The operations that change files are opened here, along the parts that they have in common. A rule says in
which states an operation may stop, and what is left to show of its later steps where it goes on. What is
proved of an operation on a store in memory is found from its rule. -/

namespace SegmentedFiles

namespace Volume

open MemoryStore (answer)
open VolumeAction

variable {v : Volume} {m : MemoryStore} {name path source target : String} {o : StoredObject}
  {fails : StoreCall → Prop}

/-! ## Parts of operations -/

/-- How a file in segments is begun where nothing is. -/
def beginFile (v : Volume) (path : String) : VolumeAction Unit := do
  v.makeParents path
  v.clearSegments path (v.storeName path)
  v.putManifest path (v.storeName path)

/-- What is left of the conversion of a plain object when its content has been read. -/
def keepInSegments (v : Volume) (path name : String) (content : Payload) : VolumeAction (List Nat) := do
  v.clearSegments path name
  v.putSegments path name 1 (chunksFrom v.chunkSize content 0)
  v.putManifest path name
  return (chunksFrom v.chunkSize content 0).map ByteArray.size

theorem convert_eq (v : Volume) (path name : String) (size : Nat) :
    v.convert path name size = if size = 0 then v.keepInSegments path name ByteArray.empty
      else (StoreCall.get v.container name none).at path >>= v.keepInSegments path name := by
  unfold convert
  split <;> rfl

/-- What a last segment has that is to be filled up. -/
def readTail (v : Volume) (path name : String) (tail : TailCompletion) : VolumeAction Payload :=
  if tail.length = 0 then pure ByteArray.empty
  else (StoreCall.get v.segmentsContainer (Segment.name name tail.sequence) none).at path

def fillTail (v : Volume) (path name : String) (tail : TailCompletion) : VolumeAction Unit := do
  let old ← v.readTail path name tail
  v.putSegment path (Segment.name name tail.sequence) (Payload.resize old v.chunkSize)

/-- Put segments of zeros. -/
def putZeros (v : Volume) (path name : String) (sequences : List Nat) : VolumeAction Unit := do
  for sequence in sequences do
    v.putSegment path (Segment.name name sequence) (Payload.zeros v.chunkSize)

theorem pad_eq (v : Volume) (path name : String) (plan : WritePlan) :
    v.pad path name plan = match plan.completeTail with
      | some tail => do
        v.fillTail path name tail
        v.putZeros path name plan.zeroSegments
      | none => v.putZeros path name plan.zeroSegments := by
  have hzeros : (if (!plan.zeroSegments.isEmpty) = true then v.putZeros path name plan.zeroSegments
      else pure ()) = v.putZeros path name plan.zeroSegments := by
    cases plan.zeroSegments <;> rfl
  unfold pad fillTail readTail
  rw [← hzeros]
  dsimp only
  cases plan.completeTail with
  | none => rfl
  | some tail =>
    dsimp only
    rw [bind_assoc]
    split <;> rfl

/-! ## On any store -/

section AnyStore

variable {α σ : Type} {answers : (call : StoreCall) → σ → call.Reply → σ → Prop} {s : σ}

theorem ensures_checkPath_bind {f : Unit → VolumeAction α} {ok : α → σ → Prop}
    {fail : VolumeError → σ → Prop} (hinvalid : Path.isBelowRoot path = false → fail (.invalidPath path) s)
    (hvalid : Path.isBelowRoot path = true → Ensures answers (f ()) s ok fail) :
    Ensures answers (checkPath path false >>= f) s ok fail := by
  rw [checkPath, Bool.false_and, Bool.or_false]
  split
  · next hpath => exact hvalid hpath
  · next hpath => exact ensures_throw (hinvalid (Bool.eq_false_iff.2 hpath))

/-- What a write does before its first segment with data: the file is prepared and filled up. It finds
the plan of the write and the lengths that segments have. -/
def beginWrite (v : Volume) (path : String) (offset : Nat) : VolumeAction (WritePlan × Array Nat) := do
  checkPath path false
  let lengths ← v.prepare path
  v.pad path (v.storeName path) (WritePlan.make offset lengths v.chunkSize)
  return (WritePlan.make offset lengths v.chunkSize, lengths.toArray)

theorem ensures_beginWrite {offset : Nat} {prepared : List Nat → σ → Prop}
    {ok : WritePlan × Array Nat → σ → Prop} {fail : VolumeError → σ → Prop}
    (hinvalid : Path.isBelowRoot path = false → fail (.invalidPath path) s)
    (hprepare : Path.isBelowRoot path = true → Ensures answers (v.prepare path) s prepared fail)
    (hpad : Path.isBelowRoot path = true → ∀ lengths t, prepared lengths t →
      Ensures answers (v.pad path (v.storeName path) (WritePlan.make offset lengths v.chunkSize)) t
        (fun _ u => ok (WritePlan.make offset lengths v.chunkSize, lengths.toArray) u) fail) :
    Ensures answers (v.beginWrite path offset) s ok fail := by
  refine ensures_checkPath_bind hinvalid fun hpath => ?_
  refine (hprepare hpath).bind fun lengths t ht => ?_
  exact (hpad hpath lengths t ht).bind fun _ _ hu => ensures_pure hu

theorem ensures_write {offset : Nat} {source : Source} {begun : WritePlan × Array Nat → σ → Prop}
    {post : Except WriteFailure Nat → σ → Prop}
    (hbegin : Ensures answers (v.beginWrite path offset) s begun fun e t => post (.error ⟨0, e⟩) t)
    (hwrite : ∀ plan lengths t, begun (plan, lengths) t → Interaction.Ensures answers
      (v.writeFrom path (v.storeName path) lengths plan.sequence plan.retained plan.zeroFill 0 source) t post) :
    Interaction.Ensures answers (v.write path offset source) s post := by
  refine Interaction.Ensures.bind hbegin ?_
  intro r t ht
  cases r with
  | error e => exact Interaction.ensures_done ht
  | ok begun => exact hwrite begun.1 begun.2 t ht

/-- Zeros are put under one number after another. -/
theorem ensures_putZeros {i n : Nat} (inv : Nat → σ → Prop) (hinit : inv 0 s) {fail : VolumeError → σ → Prop}
    (hput : ∀ k t, k < n → inv k t → Ensures answers
      (v.putSegment path (Segment.name name (i + k)) (Payload.zeros v.chunkSize)) t
        (fun _ u => inv (k + 1) u) fail) :
    Ensures answers (v.putZeros path name (List.range' i n)) s (fun _ t => inv n t) fail := by
  refine (ensures_forIn (fun rest t => ∃ k, k ≤ n ∧ rest = List.range' (i + k) (n - k) ∧ inv k t)
    ⟨0, Nat.zero_le n, rfl, hinit⟩ ?_).bind ?_
  · intro sequence rest t ht
    obtain ⟨k, hk, hrest, ht⟩ := ht
    obtain ⟨rfl, hlt, rfl⟩ := List.range'_eq_cons_iff.1 hrest.symm
    refine Ensures.yield ((hput k t (by omega) ht).mono ?_ fun _ _ h => h)
    intro _ u hu
    exact ⟨k + 1, by omega, rfl, hu⟩
  · intro _ t ht
    obtain ⟨k, hk, hrest, ht⟩ := ht
    have hleft : n - k = 0 := by simpa using (congrArg List.length hrest).symm
    have hkn : k = n := by omega
    exact ensures_pure (hkn ▸ ht)

/-- Where there is room for data in a segment, the last of them go into it, or they fill it and the rest
is written from the next one on. -/
theorem ensures_writeFrom {existing : Array Nat} {i retained zeroFill written : Nat} {source : Source}
    {begun : Payload → σ → Prop} {failed : VolumeError → σ → Prop}
    {post : Except WriteFailure Nat → σ → Prop} (hroom : retained + zeroFill < v.chunkSize)
    (hhead : Ensures answers (v.segmentHead path (Segment.name name i) retained zeroFill) s begun failed)
    (hsize : ∀ head t, begun head t → head.size = retained + zeroFill)
    (hfailed : ∀ e t, failed e t → post (.error ⟨written, e⟩) t)
    (hbroken : ∀ head t failure, begun head t → source.failure = some failure →
      post (.error ⟨written, .io path failure⟩) t)
    (hlast : ∀ head data t, begun head t → source.failure = none → data.bytes = source.bytes →
      retained + zeroFill + data.size < v.chunkSize → Ensures answers
        (v.commitSegment path (Segment.name name i) (existing.getD (i - 1) 0) head data true
          (decide (0 < data.size) || decide (0 < zeroFill))) t
        (fun _ u => post (.ok (written + data.size)) u) fun e u => post (.error ⟨written, e⟩) u)
    (hmore : ∀ head data rest t, begun head t → rest.failure = source.failure →
      source.bytes = data.bytes ++ rest.bytes → 0 < data.size →
      retained + zeroFill + data.size = v.chunkSize → Ensures answers
        (v.commitSegment path (Segment.name name i) (existing.getD (i - 1) 0) head data false true) t
        (fun _ u => Interaction.Ensures answers
          (v.writeFrom path name existing (i + 1) 0 0 (written + data.size) rest) u post)
        fun e u => post (.error ⟨written, e⟩) u) :
    Interaction.Ensures answers (v.writeFrom path name existing i retained zeroFill written source) s
      post := by
  rw [writeFrom]
  refine Interaction.Ensures.bind hhead ?_
  intro r t ht
  cases r with
  | error e => exact Interaction.ensures_done (hfailed e t ht)
  | ok head =>
  have hsize := hsize head t ht
  dsimp only
  split
  · next failure hread =>
    exact Interaction.ensures_done (hbroken head t failure ht (Source.read_error hread).1)
  next data rest hread =>
  rcases Source.cases_of_read hread with ⟨hshort, hnone, hall⟩ | ⟨hfull, hfailure, hsplit⟩
  · have hend : (decide (data.size < v.chunkSize - head.size) || v.chunkSize - head.size == 0) = true := by
      rw [decide_eq_true hshort, Bool.true_or]
    simp only [hend]
    refine Interaction.Ensures.bind (hlast head data t ht hnone hall (by omega)) ?_
    intro r u hu
    cases r with
    | error e => exact Interaction.ensures_done hu
    | ok _ =>
      dsimp only
      rw [dif_pos trivial]
      exact Interaction.ensures_done hu
  · have hgoes : (decide (data.size < v.chunkSize - head.size) || v.chunkSize - head.size == 0) = false := by
      rw [decide_eq_false (by omega), Bool.false_or, beq_eq_false_iff_ne]
      omega
    have hset : (decide (0 < data.size) || decide (0 < zeroFill)) = true := by
      rw [decide_eq_true (by omega), Bool.true_or]
    simp only [hgoes, hset]
    refine Interaction.Ensures.bind (hmore head data rest t ht hfailure hsplit (by omega) (by omega)) ?_
    intro r u hu
    cases r with
    | error e => exact Interaction.ensures_done hu
    | ok _ =>
      dsimp only
      rw [dif_neg Bool.false_ne_true]
      exact hu

end AnyStore

/-! ## Looking for an object -/

variable {ok : MemoryStore → Prop} {fail : VolumeError → MemoryStore → Prop}

theorem head_ensures :
    Ensures (answer.mayFail fails) ((StoreCall.head v.container name).at path) m
      (fun info t => t = m ∧ ∃ o, m.object? v.container name = some o ∧ info.manifest = o.manifest)
      fun e t => t = m ∧ ∃ cause, e = .ofStore path cause := by
  refine ensures_at ?_
  intro reply t hreply
  rcases hreply with hreply | ⟨-, rfl, e, -, rfl⟩
  · cases ho : m.object? v.container name with
    | none =>
      obtain ⟨rfl, rfl⟩ := Prod.mk.inj ((MemoryStore.answer_head_of_none ho).symm.trans hreply)
      exact ⟨rfl, _, rfl⟩
    | some o =>
      obtain ⟨rfl, rfl⟩ := Prod.mk.inj ((MemoryStore.answer_head_of_some ho).symm.trans hreply)
      exact ⟨rfl, o, rfl, rfl⟩
  · exact ⟨rfl, e, rfl⟩

theorem manifestAt_ensures :
    Ensures (answer.mayFail fails) (v.manifestAt path name) m
      (fun found t => t = m ∧ found = (m.object? v.container name).bind StoredObject.manifest)
      fun _ t => t = m ∧ ∃ call, fails call := by
  obtain ⟨reply, hreply⟩ : ∃ reply, answer (.head v.container name) m = (reply, m) := ⟨_, rfl⟩
  refine ensures_try_bind hreply ?_ ?_
  · cases ho : m.object? v.container name with
    | none =>
      obtain ⟨rfl, -⟩ := Prod.mk.inj ((MemoryStore.answer_head_of_none ho).symm.trans hreply)
      exact ensures_pure ⟨rfl, rfl⟩
    | some o =>
      obtain ⟨rfl, -⟩ := Prod.mk.inj ((MemoryStore.answer_head_of_some ho).symm.trans hreply)
      exact ensures_pure ⟨rfl, rfl⟩
  · intro e he hfails
    split
    · next heq => cases heq
    · next heq => exact absurd (Except.error.inj heq) he
    · exact ensures_throw ⟨rfl, _, hfails⟩

/-! ## Directories -/

/-- Directories are looked for one after another. `inv` says what is true when some are still ahead: it
stays true where there is one, or where one is made. -/
theorem ensures_makeParents (inv : List String → MemoryStore → Prop) (hinit : inv (Path.ancestors path) m)
    (hcall : ∀ dir rest t call e, inv (dir :: rest) t → fails call → fail (.ofStore dir e) t)
    (hfile : ∀ dir rest t o, inv (dir :: rest) t → t.object? v.container (v.storeName dir) = some o →
      o.contentType ≠ directoryType → fail (.invalidPath path) t)
    (hthere : ∀ dir rest t o, inv (dir :: rest) t → t.object? v.container (v.storeName dir) = some o →
      o.contentType = directoryType → inv rest t)
    (hmake : ∀ dir rest t, inv (dir :: rest) t → t.object? v.container (v.storeName dir) = none →
      Ensures (answer.mayFail fails) ((StoreCall.put v.container (v.storeName dir) ByteArray.empty
        (PutOptions.plain directoryType)).at dir) t (fun _ u => inv rest u) fail)
    (hend : ∀ t, inv [] t → ok t) :
    Ensures (answer.mayFail fails) (v.makeParents path) m (fun _ t => ok t) fail := by
  refine (ensures_forIn inv hinit ?_).bind fun _ t ht => ensures_pure (hend t ht)
  intro dir rest t ht
  obtain ⟨reply, hreply⟩ : ∃ reply, answer (.head v.container (v.storeName dir)) t = (reply, t) := ⟨_, rfl⟩
  refine ensures_try_bind hreply ?_ ?_
  · cases ho : t.object? v.container (v.storeName dir) with
    | none =>
      obtain ⟨rfl, -⟩ := Prod.mk.inj ((MemoryStore.answer_head_of_none ho).symm.trans hreply)
      exact Ensures.yield (hmake dir rest t ht ho)
    | some o =>
      obtain ⟨rfl, -⟩ := Prod.mk.inj ((MemoryStore.answer_head_of_some ho).symm.trans hreply)
      dsimp only [StoredObject.info]
      split
      · next htype => exact Ensures.yield (ensures_throw (hfile dir rest t o ht ho (bne_iff_ne.1 htype)))
      · next htype => exact ensures_pure ⟨rfl, hthere dir rest t o ht ho (by simpa using htype)⟩
  · intro e he hfails
    split
    · next heq => cases heq
    · next heq => exact absurd (Except.error.inj heq) he
    · exact Ensures.yield (ensures_throw (hcall dir rest t _ _ ht hfails))

/-! ## Files in segments -/

section Prepare

variable {ok : List Nat → MemoryStore → Prop}
  (hcall : ∀ e, fails (.head v.container (v.storeName path)) → fail (.ofStore path e) m)

include hcall

/-- A file that is not there is begun. -/
theorem ensures_prepare_of_none (ho : m.object? v.container (v.storeName path) = none)
    (hbegin : Ensures (answer.mayFail fails) (v.beginFile path) m (fun _ t => ok [] t) fail) :
    Ensures (answer.mayFail fails) (v.prepare path) m ok fail := by
  have hbegun : Ensures (answer.mayFail fails) (v.beginFile path >>= fun _ => pure []) m ok fail :=
    hbegin.bind fun _ _ ht => ensures_pure ht
  simp only [beginFile, bind_assoc] at hbegun
  refine ensures_try_bind (MemoryStore.answer_head_of_none ho) hbegun ?_
  intro e he hfails
  split
  · next heq => exact absurd (Except.error.inj heq) he
  · exact ensures_throw (hcall _ hfails)
  · next heq => cases heq

/-- The segments of a manifest are looked for, and a plain object is turned into one if it is a file. -/
theorem ensures_prepare_of_some (ho : m.object? v.container (v.storeName path) = some o)
    (hmanifest : o.manifest.isSome = true →
      Ensures (answer.mayFail fails) (do return (← v.segments path (v.storeName path)).map SegmentEntry.length)
        m ok fail)
    (hdirectory : o.manifest = none → o.contentType = directoryType → fail (.invalidPath path) m)
    (hplain : o.manifest = none → o.contentType ≠ directoryType →
      Ensures (answer.mayFail fails) (v.convert path (v.storeName path) (m.resolve o).size) m ok fail) :
    Ensures (answer.mayFail fails) (v.prepare path) m ok fail := by
  refine ensures_try_bind (MemoryStore.answer_head_of_some ho) ?_ ?_
  · dsimp only [StoredObject.info]
    split
    · next hsome => exact hmanifest hsome
    next hnone =>
    replace hnone : o.manifest = none := by simpa using hnone
    split
    · next htype => exact ensures_throw (hdirectory hnone (by simpa using htype))
    · next htype => exact hplain hnone (by simpa using htype)
  · intro e he hfails
    split
    · next heq => exact absurd (Except.error.inj heq) he
    · exact ensures_throw (hcall _ hfails)
    · next heq => cases heq

end Prepare

/-! ## Whole files -/

/-- The segments of a manifest that was found, if one was, are deleted. -/
def removeFound (path : String) (found : Option ManifestRef) : VolumeAction Unit := do
  if let some manifest := found then
    removeSegments path manifest

/-- The segments of a file that has been moved, and of the one that it has replaced. -/
def removeBoth (source target : String) (moved replaced : Option ManifestRef) : VolumeAction Unit := do
  removeFound source moved
  removeFound target replaced

/-- What is left of a write in one piece when the directories are there. -/
def replaceObject (v : Volume) (path : String) (content : Payload) : VolumeAction Unit := do
  let previous ← v.manifestAt path (v.storeName path)
  (StoreCall.put v.container (v.storeName path) content (PutOptions.plain fileType)).at path
  removeFound path previous

theorem ensures_writeAll {content : Payload}
    (hinvalid : Path.isBelowRoot path = false → fail (.invalidPath path) m)
    (hvalid : Path.isBelowRoot path = true →
      Ensures (answer.mayFail fails) (do v.makeParents path; v.replaceObject path content) m
        (fun _ t => ok t) fail) :
    Ensures (answer.mayFail fails) (v.writeAll path content) m (fun _ t => ok t) fail :=
  ensures_checkPath_bind hinvalid hvalid

theorem ensures_replaceObject {content : Payload} (hunchanged : ∀ e, (∃ call, fails call) → fail e m)
    (hput : Ensures (answer.mayFail fails) (do
        (StoreCall.put v.container (v.storeName path) content (PutOptions.plain fileType)).at path
        removeFound path ((m.object? v.container (v.storeName path)).bind StoredObject.manifest)) m
      (fun _ t => ok t) fail) :
    Ensures (answer.mayFail fails) (v.replaceObject path content) m (fun _ t => ok t) fail := by
  refine manifestAt_ensures.bind_mono (fun e _ ht => ht.1 ▸ hunchanged e ht.2) ?_
  intro found t ht
  obtain ⟨rfl, rfl⟩ := ht
  exact hput

/-- What is left of a move when the directories are there, of an object with the manifest `moved`. -/
def moveObject (v : Volume) (source target : String) (moved : Option ManifestRef) : VolumeAction Unit := do
  let replaced ← v.manifestAt target (v.storeName target)
  (StoreCall.copy ⟨v.container, v.storeName source⟩ ⟨v.container, v.storeName target⟩).at source
  (StoreCall.delete v.container (v.storeName source)).at source
  removeBoth source target moved replaced

theorem moveObject_eq (v : Volume) (source target : String) (moved : Option ManifestRef) :
    v.moveObject source target moved = (do
      let replaced ← v.manifestAt target (v.storeName target)
      (StoreCall.copy ⟨v.container, v.storeName source⟩ ⟨v.container, v.storeName target⟩).at source
      (StoreCall.delete v.container (v.storeName source)).at source
      if let some manifest := moved then
        removeSegments source manifest
      if let some manifest := replaced then
        removeSegments target manifest) := by
  cases moved <;> rfl

/-- A move stops at a path that is invalid, where the file is not found, or where it is moved to itself. -/
theorem ensures_move (hinvalid : Path.isBelowRoot source = false → fail (.invalidPath source) m)
    (hinvalid' : Path.isBelowRoot target = false → fail (.invalidPath target) m)
    (hhead : ∀ e, fail (.ofStore source e) m)
    (hsame : Path.isBelowRoot source = true → Path.isBelowRoot target = true →
      v.storeName source = v.storeName target → ok m)
    (hmove : Path.isBelowRoot source = true → Path.isBelowRoot target = true →
      v.storeName source ≠ v.storeName target → ∀ o, m.object? v.container (v.storeName source) = some o →
      Ensures (answer.mayFail fails) (do v.makeParents target; v.moveObject source target o.manifest) m
        (fun _ t => ok t) fail) :
    Ensures (answer.mayFail fails) (v.move source target) m (fun _ t => ok t) fail := by
  refine ensures_checkPath_bind hinvalid fun hsource => ?_
  refine ensures_checkPath_bind hinvalid' fun htarget => ?_
  refine head_ensures.bind_mono ?_ ?_
  · intro e t ht
    obtain ⟨rfl, cause, rfl⟩ := ht
    exact hhead cause
  intro info t ht
  obtain ⟨rfl, o, ho, hinfo⟩ := ht
  dsimp only
  split
  · next heq => exact ensures_pure (hsame hsource htarget (by simpa using heq))
  · next hne =>
    have hrest := hmove hsource htarget (by simpa using hne) o ho
    rw [← hinfo, moveObject_eq] at hrest
    exact hrest

/-- The store in which the object `o` has been copied to the path `target`. -/
def copied (v : Volume) (target : String) (o : StoredObject) (m : MemoryStore) : MemoryStore :=
  m.place v.container (v.storeName target) (m.written (m.resolve o) (PutOptions.plain o.contentType))

/-- The store in which it has been deleted after that. -/
def relocated (v : Volume) (source target : String) (o : StoredObject) (m : MemoryStore) : MemoryStore :=
  (v.copied target o m).vacate v.container (v.storeName source)

theorem object?_relocated_source :
    (v.relocated source target o m).object? v.container (v.storeName source) = none :=
  MemoryStore.object?_vacate_self

theorem object?_relocated_target (hne : v.storeName source ≠ v.storeName target) :
    (v.relocated source target o m).object? v.container (v.storeName target)
      = some (m.written (m.resolve o) (PutOptions.plain o.contentType)) :=
  (MemoryStore.object?_vacate_of_ne fun h => hne h.2.symm).trans MemoryStore.object?_place_self

/-- The object is copied and then deleted, before any segments are. -/
theorem ensures_moveObject {moved : Option ManifestRef}
    (ho : m.object? v.container (v.storeName source) = some o) (hne : v.storeName source ≠ v.storeName target)
    (hunchanged : ∀ e, (∃ call, fails call) → fail e m)
    (hcopied : ∀ e, (∃ call, fails call) → fail e (v.copied target o m))
    (hremove : Ensures (answer.mayFail fails)
      (removeBoth source target moved ((m.object? v.container (v.storeName target)).bind StoredObject.manifest))
      (v.relocated source target o m) (fun _ t => ok t) fail) :
    Ensures (answer.mayFail fails) (v.moveObject source target moved) m (fun _ t => ok t) fail := by
  refine manifestAt_ensures.bind_mono (fun _ _ ht => ht.1 ▸ hunchanged _ ht.2) ?_
  intro replaced t ht
  obtain ⟨rfl, rfl⟩ := ht
  refine ensures_at_bind (MemoryStore.answer_copy ho (MemoryStore.mem_containers_of_object? ho)) ?_
    fun _ hcall => hunchanged _ ⟨_, hcall⟩
  have hleft : (v.copied target o t).object? v.container (v.storeName source) = some o :=
    (MemoryStore.object?_place_of_ne fun h => hne h.2).trans ho
  exact ensures_at_bind (MemoryStore.answer_delete_of_some hleft) hremove
    fun _ hcall => hcopied _ ⟨_, hcall⟩

end Volume

end SegmentedFiles
