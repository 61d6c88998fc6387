import SegmentedFiles.Proofs.Volume.Prepare

/-! # Filling up a file with zeros

A file that ends before the segment in which a write begins is filled up to it: the last segment to the
size of a chunk, and then segments of zeros (`pad_ensures`). Where this stops half way, the file is
extended less far. -/

namespace SegmentedFiles.Volume

open Bytes (chunkLength? chunkCount)
open MemoryStore (answer)
open VolumeAction

variable {v : Volume} {m t : MemoryStore} {name path : String} {content : Bytes}
  {before after pieces : List Bytes} {fails : StoreCall → Prop} {i n offset : Nat}

/-- A segment is put where its chunk starts. -/
theorem putSegment_ensures {piece : Payload} (hm : v.Ready m) (hstores : v.Stores m name content)
    (hpos : 0 < piece.size) (hle : piece.size ≤ v.chunkSize)
    (hstart : i * v.chunkSize ≤ content.length)
    (hend : piece.size = v.chunkSize ∨ content.length ≤ i * v.chunkSize + piece.size)
    (hfits : i * v.chunkSize + piece.size ≤ v.chunkSize * Segment.maxSequence) :
    Ensures (answer.mayFail fails) (v.putSegment path (Segment.name name (i + 1)) piece) m
      (fun _ t => v.SegmentsChanged name m t ∧
        v.Stores t name (content.splice (i * v.chunkSize) piece.bytes))
      fun _ t => t = m ∧ ∃ call, fails call :=
  ensures_at_ok (MemoryStore.answer_put hm.segments hm.putBudget)
    ⟨.place v name m (i + 1) _, hstores.place hpos hle hstart hend hfits⟩
    fun _ hcall => ⟨rfl, _, hcall⟩

/-- A segment is put in the place of a piece, or behind the last one. -/
theorem putPiece_ensures {data : Payload} (hm : v.Ready m) (h : v.Pieces m name (before ++ after))
    (hi : before.length = i) (hfits : i < Segment.maxSequence) :
    Ensures (answer.mayFail fails) (v.putSegment path (Segment.name name (i + 1)) data) m
      (fun _ t => v.SegmentsChanged name m t ∧
        v.Pieces t name (before ++ data.bytes :: after.tail))
      fun _ t => t = m ∧ ∃ call, fails call :=
  ensures_at_ok (MemoryStore.answer_put hm.segments hm.putBudget)
    ⟨.place v name m (i + 1) _, h.place hi hfits⟩ fun _ hcall => ⟨rfl, _, hcall⟩

/-! ## Filling up with zeros -/

/-- Pieces of zeros are put behind the last one. -/
theorem zeroPieces_ensures (hm : v.Ready m) (h : v.Pieces m name pieces)
    (hfits : pieces.length + n ≤ Segment.maxSequence) :
    Ensures (answer.mayFail fails) (v.putZeros path name (List.range' (pieces.length + 1) n)) m
      (fun _ t => v.SegmentsChanged name m t ∧
        v.Pieces t name (pieces ++ List.replicate n (List.replicate v.chunkSize 0)))
      fun _ t => v.SegmentsChanged name m t ∧
        (∃ k, k ≤ n ∧ v.Pieces t name (pieces ++ List.replicate k (List.replicate v.chunkSize 0))) ∧
        ∃ call, fails call := by
  refine ensures_putZeros (fun k t => v.SegmentsChanged name m t ∧
    v.Pieces t name (pieces ++ List.replicate k (List.replicate v.chunkSize 0)))
    ⟨.refl v name m, by rwa [List.replicate_zero, List.append_nil]⟩ ?_
  intro k t hk ht
  obtain ⟨ht, hpieces⟩ := ht
  have hlength : (pieces ++ List.replicate k (List.replicate v.chunkSize (0 : UInt8))).length
      = pieces.length + k := by
    rw [List.length_append, List.length_replicate]
  have hbehind := hpieces
  rw [← List.append_nil (pieces ++ _)] at hbehind
  rw [Nat.add_right_comm]
  refine (putPiece_ensures (ht.ready hm) hbehind hlength (by omega)).mono ?_ ?_
  · intro _ u hu
    obtain ⟨hu, hplaced⟩ := hu
    rw [Payload.bytes_zeros, List.tail_nil, List.append_assoc, ← List.replicate_succ'] at hplaced
    exact ⟨ht.trans hu, hplaced⟩
  · intro _ u hu
    obtain ⟨rfl, hcall⟩ := hu
    exact ⟨ht, ⟨k, Nat.le_of_lt hk, hpieces⟩, hcall⟩

/-- A content that ends with a chunk is extended chunk by chunk. -/
theorem zeros_ensures (hm : v.Ready m) (hstores : v.Stores m name content)
    (hlength : content.length = i * v.chunkSize)
    (hfits : (i + n) * v.chunkSize ≤ v.chunkSize * Segment.maxSequence) :
    Ensures (answer.mayFail fails) (v.putZeros path name (List.range' (i + 1) n)) m
      (fun _ t => v.SegmentsChanged name m t ∧
        v.Stores t name (content.extend ((i + n) * v.chunkSize)))
      fun _ t => v.SegmentsChanged name m t ∧
        (∃ z, i * v.chunkSize ≤ z ∧ z ≤ (i + n) * v.chunkSize ∧
          v.Stores t name (content.extend z)) ∧ ∃ call, fails call := by
  have hchunk := v.chunkSize_pos
  have hcount : (Bytes.chunks v.chunkSize content).length = i := by
    rw [Bytes.length_chunks, hlength]
    refine Nat.le_antisymm ((Bytes.chunkCount_le_iff hchunk).2 (Nat.le_refl _)) ?_
    exact Nat.le_of_mul_le_mul_right ((Bytes.chunkCount_le_iff hchunk).1 (Nat.le_refl _)) hchunk
  have hextended : ∀ {u k}, v.Pieces u name (Bytes.chunks v.chunkSize content
      ++ List.replicate k (List.replicate v.chunkSize 0)) →
        v.Stores u name (content.extend ((i + k) * v.chunkSize)) := by
    intro u k hpieces
    rw [← Bytes.chunks_extend hchunk hlength] at hpieces
    exact .of_pieces hpieces
  have hroom : i + n ≤ Segment.maxSequence := by
    rw [Nat.mul_comm v.chunkSize] at hfits
    exact Nat.le_of_mul_le_mul_right hfits hchunk
  subst hcount
  refine (zeroPieces_ensures hm hstores.toPieces hroom).mono ?_ ?_
  · intro _ t ht
    exact ⟨ht.1, hextended ht.2⟩
  · intro _ t ht
    obtain ⟨ht, ⟨k, hk, hpieces⟩, hcall⟩ := ht
    exact ⟨ht, ⟨_, Nat.mul_le_mul_right _ (Nat.le_add_right _ k),
      Nat.mul_le_mul_right _ (Nat.add_le_add_left hk _), hextended hpieces⟩, hcall⟩

/-- The zeros that fill up the last segment of a content. -/
theorem fillTail_ensures (hm : v.Ready m) (hstores : v.Stores m name content)
    (hcount : chunkCount v.chunkSize content.length = i + 1)
    (hshort : content.length < (i + 1) * v.chunkSize) {length : Nat} (hpos : length ≠ 0) :
    Ensures (answer.mayFail fails) (v.fillTail path name ⟨i + 1, length⟩) m
      (fun _ t => v.SegmentsChanged name m t ∧
        v.Stores t name (content.extend ((i + 1) * v.chunkSize)))
      fun _ t => t = m ∧ ∃ call, fails call := by
  rw [fillTail, readTail, if_neg hpos]
  have hreach : i * v.chunkSize < content.length :=
    (Bytes.lt_chunkCount_iff v.chunkSize_pos).1 (by omega)
  have hnext : (i + 1) * v.chunkSize = i * v.chunkSize + v.chunkSize := Nat.succ_mul i v.chunkSize
  obtain ⟨o, ho, hplain, hbytes⟩ := hstores.object hreach
  refine ensures_at_bind (MemoryStore.answer_get ho) ?_ fun _ hcall => ⟨rfl, _, hcall⟩
  rw [MemoryStore.resolve_of_plain hplain]
  have hsize : o.content.size = content.length - i * v.chunkSize := by
    rw [← Payload.length_bytes, hbytes, List.length_take, List.length_drop]
    omega
  have hresized : (Payload.resize o.content v.chunkSize).bytes
      = (content.drop (i * v.chunkSize)).take (content.length - i * v.chunkSize)
        ++ List.replicate ((i + 1) * v.chunkSize - content.length) 0 := by
    rw [Payload.bytes_resize (by omega), Bytes.extend, Payload.length_bytes, hbytes, hsize,
      List.take_of_length_le (by rw [List.length_drop]; omega),
      List.take_of_length_le (by rw [List.length_drop])]
    congr 2
    omega
  have hfull : (Payload.resize o.content v.chunkSize).size = v.chunkSize := Payload.size_resize _ _
  have hchunk := v.chunkSize_pos
  have hmax : (i + 1) * v.chunkSize ≤ v.chunkSize * Segment.maxSequence := by
    rw [Nat.mul_comm]
    exact Nat.mul_le_mul_left _ (hstores.lt_maxSequence hreach)
  refine (putSegment_ensures hm hstores (by omega) (by omega) (Nat.le_of_lt hreach) (.inl hfull)
    (by omega)).mono ?_ fun _ _ h => h
  intro _ t ht
  obtain ⟨ht, hplaced⟩ := ht
  rw [hresized, Bytes.splice_kept_append (by omega) (Nat.le_refl _),
    Bytes.splice_zeros (Nat.le_refl _)] at hplaced
  rw [show content.length + ((i + 1) * v.chunkSize - content.length) = (i + 1) * v.chunkSize by omega]
    at hplaced
  exact ⟨ht, hplaced⟩

/-- What is left to do once the last segment is as long as a chunk. -/
theorem zeros_after_ensures {count : Nat} (hm : v.Ready m) (ht : v.SegmentsChanged name m t)
    (hstores : v.Stores t name (content.extend (count * v.chunkSize)))
    (hcount : content.length ≤ count * v.chunkSize) (hend : (count + n) * v.chunkSize ≤ offset)
    (hfits : offset ≤ v.chunkSize * Segment.maxSequence) :
    Ensures (answer.mayFail fails) (v.putZeros path name (List.range' (count + 1) n)) t
      (fun _ u => v.SegmentsChanged name m u ∧
        v.Stores u name (content.extend ((count + n) * v.chunkSize)))
      fun _ u => v.SegmentsChanged name m u ∧
        (∃ z, z ≤ offset ∧ v.Stores u name (content.extend z)) ∧ ∃ call, fails call := by
  have hle : count * v.chunkSize ≤ (count + n) * v.chunkSize :=
    Nat.mul_le_mul_right _ (Nat.le_add_right _ _)
  have hlength : (content.extend (count * v.chunkSize)).length = count * v.chunkSize := by
    rw [Bytes.length_extend]
    omega
  refine (zeros_ensures (n := n) (ht.ready hm) hstores hlength (by omega)).mono ?_ ?_
  · intro _ u hu
    obtain ⟨hu, hzeros⟩ := hu
    rw [Bytes.extend_extend hle] at hzeros
    exact ⟨ht.trans hu, hzeros⟩
  · intro _ u hu
    obtain ⟨hu, ⟨z, hfrom, hto, hzeros⟩, hcall⟩ := hu
    rw [Bytes.extend_extend hfrom] at hzeros
    exact ⟨ht.trans hu, ⟨z, by omega, hzeros⟩, hcall⟩

/-- A file is filled up to the segment in which an offset lies. -/
theorem pad_ensures {lengths : List Nat} (hm : v.Ready m) (hstores : v.Stores m name content)
    (hlengths : ∀ j : Nat, lengths[j]? = chunkLength? v.chunkSize content.length j)
    (hfits : offset ≤ v.chunkSize * Segment.maxSequence) :
    Ensures (answer.mayFail fails)
      (v.pad path name (WritePlan.make offset lengths v.chunkSize)) m
      (fun _ t => v.SegmentsChanged name m t ∧
        v.Stores t name (content.extend (offset / v.chunkSize * v.chunkSize)))
      fun _ t => v.SegmentsChanged name m t ∧
        (∃ z, z ≤ offset ∧ v.Stores t name (content.extend z)) ∧ ∃ call, fails call := by
  have hchunk := v.chunkSize_pos
  have hstart : offset / v.chunkSize * v.chunkSize ≤ offset := Nat.div_mul_le_self _ _
  rw [WritePlan.make_of_chunkLengths hchunk hlengths, pad_eq, WritePlan.zeroSegments]
  dsimp only
  by_cases hbeyond : chunkCount v.chunkSize content.length ≤ offset / v.chunkSize
  · have hcount : content.length ≤ chunkCount v.chunkSize content.length * v.chunkSize :=
      (Bytes.chunkCount_le_iff hchunk).1 (Nat.le_refl _)
    have hgap : offset / v.chunkSize + 1 - (chunkCount v.chunkSize content.length + 1)
        = offset / v.chunkSize - chunkCount v.chunkSize content.length := by omega
    rw [Nat.min_eq_left hbeyond, hgap]
    generalize hlast : chunkCount v.chunkSize content.length = count at *
    obtain ⟨n, hn⟩ := Nat.exists_eq_add_of_le hbeyond
    rw [hn] at hstart ⊢
    rw [Nat.add_sub_cancel_left]
    by_cases hshort : content.length < count * v.chunkSize
    · obtain ⟨i, rfl⟩ : ∃ i, count = i + 1 :=
        Nat.exists_eq_add_one_of_ne_zero (by rintro rfl; simp at hshort)
      have hreach : i * v.chunkSize < content.length :=
        (Bytes.lt_chunkCount_iff hchunk).1 (Nat.lt_of_lt_of_eq (Nat.lt_succ_self i) hlast.symm)
      rw [if_pos ⟨Nat.le_add_right _ _, hshort⟩]
      dsimp only
      rw [Nat.add_sub_cancel]
      refine (fillTail_ensures hm hstores hlast hshort (by omega)).bind_mono ?_ ?_
      · intro _ t ht
        obtain ⟨rfl, hcall⟩ := ht
        refine ⟨.refl v name t, ⟨0, Nat.zero_le _, ?_⟩, hcall⟩
        rw [Bytes.extend_of_le (Nat.zero_le _)]
        exact hstores
      · intro _ t ht
        obtain ⟨ht, hfilled⟩ := ht
        exact zeros_after_ensures hm ht hfilled hcount hstart hfits
    · rw [if_neg fun h => hshort h.2]
      refine zeros_after_ensures hm (.refl v name m) ?_ hcount hstart hfits
      rw [Bytes.extend_of_le (Nat.not_lt.1 hshort)]
      exact hstores
  · have hreach : offset / v.chunkSize * v.chunkSize < content.length :=
      (Bytes.lt_chunkCount_iff hchunk).1 (Nat.not_le.1 hbeyond)
    rw [if_neg fun h => hbeyond h.1, Nat.min_eq_right (Nat.le_of_not_le hbeyond), Nat.sub_self,
      Bytes.extend_of_le (Nat.le_of_lt hreach)]
    exact ensures_pure ⟨.refl v name m, hstores⟩

end SegmentedFiles.Volume
