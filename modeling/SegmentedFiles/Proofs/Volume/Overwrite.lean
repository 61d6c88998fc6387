import SegmentedFiles.Proofs.Volume.Write

/-! # Writes over segments of any lengths

A volume may be opened again with segments of another size, and the files that are there keep theirs. A
write into such a file begins in the segment that the offset lies in, but from there on its data is cut
by the new size and each cut is put over one old segment, whatever that has (`overwrite_ensures`). So old
bytes behind the data may be lost, and where as many bytes as fill a new segment would be kept in front
of the data, none are stored (`writeFrom_blocked`). A write that begins behind the last segment goes
behind the old bytes, whatever the segments are (`write_behind_ensures`). -/

namespace SegmentedFiles.Volume

open Bytes (leftover overwritten)
open MemoryStore (answer)
open VolumeAction

variable {v : Volume} {m t u : MemoryStore} {name path : String} {content piece : Bytes}
  {before after pieces : List Bytes} {fails : StoreCall → Prop} {i count offset stop : Nat}

/-! ## One segment -/

variable {retained zeroFill oldLength : Nat} {head data : Payload}

/-- A segment that is filled by the data takes the place of the old one, whatever that has. -/
theorem commitWhole_ensures (hm : v.Ready m) (h : v.Pieces m name (before ++ after))
    (hi : before.length = i) (hfits : i < Segment.maxSequence) :
    Ensures (answer.mayFail fails)
      (v.commitSegment path (Segment.name name (i + 1)) oldLength head data false true) m
      (fun _ t => v.SegmentsChanged name m t ∧
        v.Pieces t name (before ++ (head.bytes ++ data.bytes) :: after.tail))
      fun _ _ => ∃ call, fails call := by
  have hempty : (head ++ data ++ ByteArray.empty).bytes = head.bytes ++ data.bytes := by
    rw [Payload.bytes_append, Payload.bytes_append, Payload.bytes_empty, List.append_nil]
  unfold commitSegment
  dsimp only
  rw [if_pos rfl, Bool.false_and, if_neg Bool.false_ne_true, pure_bind, ← hempty]
  exact (putPiece_ensures hm h hi hfits).mono (fun _ _ h => h) fun _ _ h => h.2

/-- The segment with the last of the data keeps what it has behind them. -/
theorem commitLast_ensures {commit : Bool} (hm : v.Ready m)
    (h : v.Pieces m name (before ++ after)) (hi : before.length = i)
    (hfits : i < Segment.maxSequence) (hkept : retained ≤ (after.headD []).length)
    (hhead : head.bytes = (after.headD []).take retained ++ List.replicate zeroFill 0)
    (hcommit : commit = (decide (0 < data.size) || decide (0 < zeroFill)))
    (hlength : oldLength = (after.headD []).length) :
    Ensures (answer.mayFail fails)
      (v.commitSegment path (Segment.name name (i + 1)) oldLength head data true commit) m
      (fun _ t => v.SegmentsChanged name m t ∧ ∃ pieces, v.Pieces t name pieces ∧
        pieces.flatten = before.flatten ++ (head.bytes ++ data.bytes)
          ++ ((after.headD []).drop (head.size + data.size) ++ after.tail.flatten))
      fun _ _ => ∃ call, fails call := by
  have hsize : (head ++ data).size = head.size + data.size := by
    rw [← Payload.length_bytes, Payload.bytes_append, List.length_append, Payload.length_bytes,
      Payload.length_bytes]
  have hput : ∀ tail : Payload, tail.bytes = (after.headD []).drop (head.size + data.size) →
      Ensures (answer.mayFail fails)
        (v.putSegment path (Segment.name name (i + 1)) (head ++ data ++ tail)) m
        (fun _ t => v.SegmentsChanged name m t ∧ ∃ pieces, v.Pieces t name pieces ∧
          pieces.flatten = before.flatten ++ (head.bytes ++ data.bytes)
            ++ ((after.headD []).drop (head.size + data.size) ++ after.tail.flatten))
        fun _ _ => ∃ call, fails call := by
    intro tail htail
    refine (putPiece_ensures hm h hi hfits).mono ?_ fun _ _ h => h.2
    intro _ t ht
    obtain ⟨ht, hpieces⟩ := ht
    refine ⟨ht, _, hpieces, ?_⟩
    rw [List.flatten_append, List.flatten_cons, Payload.bytes_append, Payload.bytes_append, htail]
    simp only [List.append_assoc]
  unfold commitSegment
  dsimp only
  rw [Bool.true_and, hsize]
  split
  · split
    · next hshort =>
      have hlt : head.size + data.size < oldLength := of_decide_eq_true hshort
      have hsegment : v.HasSegment m name (i + 1) (after.headD []) := h.object_head hi (by omega)
      refine (segmentTail_of_segment hsegment hlength hlt).bind_mono (fun _ _ h => h.2) ?_
      intro tail t ht
      obtain ⟨rfl, htail⟩ := ht
      exact hput tail htail
    · next hlong =>
      have hle : (after.headD []).length ≤ head.size + data.size := by
        have : ¬head.size + data.size < oldLength := fun hlt => hlong (decide_eq_true hlt)
        omega
      rw [pure_bind]
      exact hput _ (List.drop_eq_nil_of_le hle).symm
  · next hunset =>
    have hnothing : data.size = 0 ∧ zeroFill = 0 := by
      simp only [Bool.not_eq_true] at hunset
      simpa [hunset] using hcommit.symm
    have hdata : data.bytes = [] := List.length_eq_zero_iff.1 (by rw [Payload.length_bytes]; omega)
    have hretained : head.size = retained := by
      rw [← Payload.length_bytes, hhead, hnothing.2, List.replicate_zero, List.append_nil,
        List.length_take, Nat.min_eq_left hkept]
    refine ensures_pure ⟨.refl v name m, _, h, ?_⟩
    rw [hdata, hhead, hretained, hnothing.1, hnothing.2, List.replicate_zero, List.append_nil,
      List.append_nil, Nat.add_zero, List.append_assoc, ← List.append_assoc (List.take _ _),
      List.take_append_drop, List.flatten_append, Bytes.flatten_eq_headD_append after]

/-! ## All segments -/

/-- What may come of a write that stores `count` bytes in all and leaves a file with the bytes
`content`, unless a call fails. -/
def Leaves (v : Volume) (name : String) (fails : StoreCall → Prop) (count : Nat) (content : Bytes)
    (m : MemoryStore) (r : Except WriteFailure Nat) (t : MemoryStore) : Prop :=
  match r with
  | .ok stored => stored = count ∧ v.SegmentsChanged name m t ∧
      ∃ pieces, v.Pieces t name pieces ∧ pieces.flatten = content
  | .error _ => ∃ call, fails call

theorem Leaves.of_changed {r : Except WriteFailure Nat} (hu : v.SegmentsChanged name m u)
    (h : v.Leaves name fails count content u r t) : v.Leaves name fails count content m r t := by
  cases r with
  | ok stored =>
    obtain ⟨hcount, ht, hpieces⟩ := h
    exact ⟨hcount, hu.trans ht, hpieces⟩
  | error failure => exact h

/-- The length that is known of the segment that a piece is. -/
theorem getD_of_drop_eq {existing : Array Nat} (h : existing.toList.drop i = after.map List.length) :
    existing.getD i 0 = (after.headD []).length := by
  have hfirst := congrArg List.head? h
  rw [List.head?_drop, List.head?_map] at hfirst
  rw [Array.getD_eq_getD_getElem?, ← Array.getElem?_toList, hfirst]
  cases after with
  | nil => rfl
  | cons piece rest => rfl

/-- The data is cut into chunks, and each is put over one piece. -/
theorem overwrite_ensures {existing : Array Nat} {written : Nat} {source : Source} (hm : v.Ready m)
    (h : v.Pieces m name (before ++ after)) (hi : before.length = i)
    (hkept : retained ≤ (after.headD []).length) (hroom : retained + zeroFill < v.chunkSize)
    (hexisting : existing.toList.drop i = after.map List.length)
    (hfits : i + (retained + zeroFill + source.bytes.length) / v.chunkSize < Segment.maxSequence)
    (hwhole : source.failure = none) :
    Interaction.Ensures (answer.mayFail fails)
      (v.writeFrom path name existing (i + 1) retained zeroFill written source) m
      (v.Leaves name fails (written + source.bytes.length)
        (overwritten v.chunkSize before after retained zeroFill source.bytes) m) := by
  -- The induction is on the data that remains: a segment that is not the last takes some of it.
  induction hremaining : source.bytes.length using Nat.strongRecOn
    generalizing i retained zeroFill written source before after m with
  | _ remaining ih =>
    subst hremaining
    have hchunk := v.chunkSize_pos
    have hindex : i < Segment.maxSequence := Nat.lt_of_le_of_lt (Nat.le_add_right i _) hfits
    have hsegment : 0 < retained → v.HasSegment m name (i + 1) (after.headD []) :=
      fun hpos => h.object_head hi (Nat.lt_of_lt_of_le hpos hkept)
    have hsize : ∀ head : Payload, head.bytes = (after.headD []).take retained
        ++ List.replicate zeroFill 0 → head.size = retained + zeroFill := by
      intro head hhead
      rw [← Payload.length_bytes, hhead, List.length_append, List.length_take,
        List.length_replicate, Nat.min_eq_left hkept]
    refine ensures_writeFrom hroom (segmentHead_of_segment zeroFill hsegment hkept)
      (fun head _ ht => hsize head ht.2) (fun _ _ ht => ht.2) ?broken ?last ?more
    case broken =>
      intro head t failure ht hbroken
      rw [hwhole] at hbroken
      cases hbroken
    case last =>
      -- All that remains goes into this segment.
      intro head data t ht _ hall hshort
      obtain ⟨rfl, hhead⟩ := ht
      have hcount : data.size = source.bytes.length := by rw [← Payload.length_bytes, hall]
      refine (commitLast_ensures hm h hi hindex hkept hhead rfl
        (getD_of_drop_eq hexisting)).mono ?_ fun _ _ h => h
      intro _ u hu
      obtain ⟨hu, pieces, hpieces, hflatten⟩ := hu
      refine ⟨by rw [hcount], hu, pieces, hpieces, ?_⟩
      rw [hflatten, Bytes.overwritten_of_lt (by omega), ← hhead, hall, hsize head hhead, hcount]
      simp only [List.append_assoc]
    case more =>
      -- The data fills this segment, and what is left of it goes on with the next one.
      intro head data rest t ht hfailure hsplit hsome hfull
      obtain ⟨rfl, hhead⟩ := ht
      refine (commitWhole_ensures hm h hi hindex).mono ?_ fun _ _ h => h
      intro _ u hu
      obtain ⟨hu, hplaced⟩ := hu
      have htotal : source.bytes.length = data.size + rest.bytes.length := by
        rw [hsplit, List.length_append, Payload.length_bytes]
      have hcut : retained + zeroFill + data.bytes.length = v.chunkSize := by
        rw [Payload.length_bytes, hfull]
      have hwraps : retained + zeroFill + source.bytes.length
          = v.chunkSize + rest.bytes.length := by omega
      rw [hwraps, Nat.add_div_left _ hchunk] at hfits
      rw [List.append_cons] at hplaced
      have hbehind : (before ++ [head.bytes ++ data.bytes]).length = i + 1 := by
        rw [List.length_append, hi, List.length_singleton]
      have hlengths : existing.toList.drop (i + 1) = after.tail.map List.length := by
        rw [← List.tail_drop, hexisting, List.map_tail]
      have hnext : Interaction.Ensures (answer.mayFail fails)
          (v.writeFrom path name existing (i + 1 + 1) 0 0 (written + data.size) rest) u
          (v.Leaves name fails (written + data.size + rest.bytes.length)
            (overwritten v.chunkSize (before ++ [head.bytes ++ data.bytes]) after.tail 0 0
              rest.bytes) u) :=
        ih _ (by omega) (hu.ready hm) hplaced hbehind (Nat.zero_le _) hchunk hlengths
          (by rw [Nat.zero_add]; omega) (hfailure.trans hwhole) rfl
      rw [← Bytes.overwritten_append hchunk hhead hcut, ← hsplit, Nat.add_assoc written,
        ← htotal] at hnext
      exact hnext.mono fun _ _ h => h.of_changed hu

/-- Where a chunk is kept already in front of the data there is no room for them, and they are left. -/
theorem writeFrom_blocked {existing : Array Nat} {source : Source}
    (h : v.Pieces m name (before ++ piece :: after)) (hi : before.length = i)
    (hkept : retained ≤ piece.length) (hblocked : v.chunkSize ≤ retained) :
    Interaction.Ensures (answer.mayFail fails)
      (v.writeFrom path name existing (i + 1) retained 0 0 source) m
      (v.Leaves name fails 0 (before ++ piece :: after).flatten m) := by
  rw [writeFrom]
  refine Interaction.Ensures.bind (segmentHead_of_segment 0 (fun _ => h.object_at hi) hkept) ?_
  intro r t ht
  rcases r with e | head
  · exact Interaction.ensures_done ht.2
  obtain ⟨rfl, hhead⟩ := ht
  have hwant : v.chunkSize - head.size = 0 := by
    rw [← Payload.length_bytes, hhead, List.replicate_zero, List.append_nil, List.length_take,
      Nat.min_eq_left hkept]
    omega
  dsimp only
  rw [hwant]
  split
  · next failure hread => exact absurd (Source.read_error hread).2 (Nat.not_lt_zero _)
  next data rest hread =>
  have hempty : data.size = 0 := by
    rw [← Payload.length_bytes, (Source.bytes_of_read hread).1, List.take_zero, List.length_nil]
  simp only [hempty, commitSegment]
  exact Interaction.ensures_done ⟨rfl, .refl v name t, _, h, rfl⟩

/-! ## Filling up with zeros -/

/-- The pieces end at `stop` if the last of them takes up a chunk. -/
inductive Spans (chunk : Nat) : List Bytes → Nat → Prop where
  | nil : Spans chunk [] 0
  | last (before : List Bytes) (piece : Bytes) :
    Spans chunk (before ++ [piece]) (before.flatten.length + max piece.length chunk)

namespace Spans

theorem exists_stop (chunk : Nat) (pieces : List Bytes) : ∃ stop, Spans chunk pieces stop := by
  rcases List.eq_nil_or_concat' pieces with rfl | ⟨before, piece, rfl⟩
  · exact ⟨0, .nil⟩
  · exact ⟨_, .last before piece⟩

theorem length_le {chunk : Nat} (h : Spans chunk pieces stop) : pieces.flatten.length ≤ stop := by
  cases h with
  | nil => exact Nat.le_refl 0
  | last before piece =>
    rw [List.flatten_append, List.flatten_singleton, List.length_append]
    omega

theorem locate {chunk : Nat} (h : Spans chunk pieces stop) (hoffset : stop ≤ offset) :
    WritePlan.locate offset chunk 1 0 (pieces.map List.length)
      = .beyond ((pieces.map List.length).length + 1) stop := by
  cases h with
  | nil => rfl
  | last before piece =>
    rw [← Nat.zero_add before.flatten.length] at hoffset ⊢
    rw [WritePlan.locate_beyond hoffset, List.length_map, Nat.add_comm 1]

end Spans

/-- A last piece that is shorter than a chunk is read and filled up with zeros. -/
theorem fillPiece_ensures (hm : v.Ready m) (h : v.Pieces m name (before ++ [piece]))
    (hshort : piece.length < v.chunkSize) :
    Ensures (answer.mayFail fails) (v.fillTail path name ⟨before.length + 1, piece.length⟩) m
      (fun _ t => v.SegmentsChanged name m t ∧
        v.Pieces t name (before ++ [Bytes.extend piece v.chunkSize]))
      fun _ _ => ∃ call, fails call := by
  have hfits := h.fits
  rw [List.length_append, List.length_singleton] at hfits
  have hread : Ensures (answer.mayFail fails)
      (v.readTail path name ⟨before.length + 1, piece.length⟩) m
      (fun old t => t = m ∧ old.bytes = piece) fun _ _ => ∃ call, fails call := by
    unfold readTail
    split
    · next hzero =>
      exact ensures_pure ⟨rfl, Payload.bytes_empty.trans (List.length_eq_zero_iff.1 hzero).symm⟩
    · obtain ⟨o, ho, hplain, hbytes⟩ := h.object_at rfl
      rw [← MemoryStore.resolve_of_plain hplain] at hbytes
      exact ensures_at_ok (MemoryStore.answer_get ho) ⟨rfl, hbytes⟩ fun _ hcall => ⟨_, hcall⟩
  refine hread.bind ?_
  intro old t ht
  obtain ⟨rfl, rfl⟩ := ht
  rw [Payload.length_bytes] at hshort
  rw [← Payload.bytes_resize (Nat.le_of_lt hshort)]
  exact (putPiece_ensures hm h rfl hfits).mono (fun _ _ h => h) fun _ _ h => h.2

/-- The pieces, which end at `stop`, are followed by zeros up to the chunk that an offset lies in. -/
def Padded (v : Volume) (name : String) (pieces : List Bytes) (stop offset : Nat)
    (m t : MemoryStore) : Prop :=
  v.SegmentsChanged name m t ∧ ∃ padded, v.Pieces t name padded ∧
    padded.length = pieces.length + (offset - stop) / v.chunkSize ∧
    padded.flatten
      = Bytes.extend pieces.flatten (stop + (offset - stop) / v.chunkSize * v.chunkSize)

/-- What is left to do once the last piece is filled up. -/
theorem zeros_behind_ensures {filled : List Bytes} (hm : v.Ready m) (hu : v.SegmentsChanged name m u)
    (h : v.Pieces u name filled) (hlength : filled.length = pieces.length)
    (hflatten : filled.flatten = Bytes.extend pieces.flatten stop)
    (hstop : pieces.flatten.length ≤ stop)
    (hfits : pieces.length + (offset - stop) / v.chunkSize ≤ Segment.maxSequence) :
    Ensures (answer.mayFail fails)
      (v.putZeros path name (List.range' (pieces.length + 1) ((offset - stop) / v.chunkSize))) u
      (fun _ t => v.Padded name pieces stop offset m t) fun _ _ => ∃ call, fails call := by
  rw [← hlength] at hfits ⊢
  refine (zeroPieces_ensures (hu.ready hm) h hfits).mono ?_ fun _ _ h => h.2.2
  intro _ t ht
  obtain ⟨ht, hpadded⟩ := ht
  refine ⟨hu.trans ht, _, hpadded, ?_, ?_⟩
  · rw [List.length_append, List.length_replicate, hlength]
  · rw [List.flatten_append, hflatten, List.flatten_replicate_replicate,
      Bytes.extend_append_zeros hstop]

/-- Where an offset lies past the pieces, they are filled up and followed by zeros. -/
theorem padPieces_ensures (hm : v.Ready m) (h : v.Pieces m name pieces)
    (hstop : Spans v.chunkSize pieces stop) (hoffset : stop ≤ offset)
    (hfits : pieces.length + (offset - stop) / v.chunkSize ≤ Segment.maxSequence) :
    Ensures (answer.mayFail fails)
      (v.pad path name (WritePlan.make offset (pieces.map List.length) v.chunkSize)) m
      (fun _ t => v.Padded name pieces stop offset m t) fun _ _ => ∃ call, fails call := by
  have hle := hstop.length_le
  rw [WritePlan.make_of_beyond (hstop.locate hoffset), List.length_map, pad_eq, WritePlan.zeroSegments]
  dsimp only
  rw [Nat.add_sub_cancel_left]
  cases hstop with
  | nil => exact zeros_behind_ensures hm (.refl v name m) h rfl rfl hle hfits
  | last before piece =>
    rw [WritePlan.shortTail?_append]
    by_cases hshort : piece.length < v.chunkSize
    · have hfilled : (before ++ [Bytes.extend piece v.chunkSize]).flatten
          = Bytes.extend (before ++ [piece]).flatten
              (before.flatten.length + max piece.length v.chunkSize) := by
        rw [List.flatten_append, List.flatten_append, List.flatten_singleton,
          List.flatten_singleton, Bytes.append_extend, Nat.max_eq_right (Nat.le_of_lt hshort)]
      have hlength : (before ++ [Bytes.extend piece v.chunkSize]).length
          = (before ++ [piece]).length := by
        rw [List.length_append, List.length_append, List.length_singleton, List.length_singleton]
      rw [if_pos hshort]
      refine (fillPiece_ensures hm h hshort).bind ?_
      intro _ u hu
      exact zeros_behind_ensures hm hu.1 hu.2 hlength hfilled hle hfits
    · rw [if_neg hshort]
      refine zeros_behind_ensures hm (.refl v name m) h rfl ?_ hle hfits
      rw [Bytes.extend_of_le]
      rw [List.flatten_append, List.flatten_singleton, List.length_append]
      omega

/-! ## The whole write -/

variable {source : Source}

/-- Of a file in segments nothing is changed before it is filled up. -/
theorem write_of_pieces {padded : MemoryStore → Prop} (hm : v.Ready m)
    (hpath : Path.isBelowRoot path = true) (hmanifest : v.HasManifest m (v.storeName path))
    (h : v.Pieces m (v.storeName path) pieces)
    (hpad : Ensures (answer.mayFail fails) (v.pad path (v.storeName path)
        (WritePlan.make offset (pieces.map List.length) v.chunkSize)) m
      (fun _ t => padded t) fun _ _ => ∃ call, fails call)
    (hwrite : ∀ t, padded t → Interaction.Ensures (answer.mayFail fails)
      (v.writeFrom path (v.storeName path) (pieces.map List.length).toArray
        (WritePlan.make offset (pieces.map List.length) v.chunkSize).sequence
        (WritePlan.make offset (pieces.map List.length) v.chunkSize).retained
        (WritePlan.make offset (pieces.map List.length) v.chunkSize).zeroFill 0 source) t
      (v.Leaves (v.storeName path) fails count content m)) :
    Interaction.Ensures (answer.mayFail fails) (v.write path offset source) m
      (v.Leaves (v.storeName path) fails count content m) := by
  have hbegin : Ensures (answer.mayFail fails) (v.beginWrite path offset) m
      (fun begun t => begun = (WritePlan.make offset (pieces.map List.length) v.chunkSize,
        (pieces.map List.length).toArray) ∧ padded t) fun _ _ => ∃ call, fails call := by
    refine ensures_beginWrite (fun hinvalid => absurd hpath (by simp [hinvalid]))
      (fun _ => (prepare_of_manifest hm hmanifest).mono (fun _ _ h => h) fun _ _ h => h.2) ?_
    intro _ lengths t ht
    obtain ⟨rfl, rfl⟩ := ht
    rw [h.entries_lengths]
    exact hpad.mono (fun _ _ ht => ⟨rfl, ht⟩) fun _ _ h => h
  refine ensures_write hbegin ?_
  intro plan lengths t ht
  obtain ⟨heq, ht⟩ := ht
  obtain ⟨rfl, rfl⟩ := Prod.mk.inj heq
  exact hwrite t ht

section Inside

variable (hm : v.Ready m) (hpath : Path.isBelowRoot path = true)
  (hmanifest : v.HasManifest m (v.storeName path))
  (h : v.Pieces m (v.storeName path) (before ++ piece :: after))
  (hlow : before.flatten.length ≤ offset)
  (hhigh : offset < before.flatten.length + piece.length ∨
    after = [] ∧ offset < before.flatten.length + v.chunkSize)

include hlow hhigh in
theorem pad_inside_ensures : Ensures (answer.mayFail fails) (v.pad path name
      (WritePlan.make offset ((before ++ piece :: after).map List.length) v.chunkSize)) m
    (fun _ t => t = m) fun _ _ => ∃ call, fails call := by
  rw [WritePlan.make_of_inside hlow hhigh, pad_eq, WritePlan.zeroSegments]
  dsimp only
  rw [Nat.sub_self]
  exact ensures_pure rfl

include hm hpath hmanifest h hlow hhigh

/-- A write that begins in a segment, or right behind the last one, leaves what is in front of it. -/
theorem write_inside_ensures (hwhole : source.failure = none)
    (hroom : min (offset - before.flatten.length) piece.length < v.chunkSize)
    (hfits : before.length + (offset - before.flatten.length + source.bytes.length) / v.chunkSize
      < Segment.maxSequence) :
    Interaction.Ensures (answer.mayFail fails) (v.write path offset source) m
      (v.Leaves (v.storeName path) fails source.bytes.length
        (Bytes.extend (before.flatten ++ piece.take (offset - before.flatten.length)) offset
          ++ source.bytes ++ leftover v.chunkSize
            (offset - before.flatten.length + source.bytes.length) (piece :: after)) m) := by
  refine write_of_pieces hm hpath hmanifest h (pad_inside_ensures hlow hhigh) ?_
  rintro t rfl
  rw [WritePlan.make_of_inside hlow hhigh]
  dsimp only
  generalize hretained : min (offset - before.flatten.length) piece.length = retained at *
  generalize hzero : offset - before.flatten.length - retained = zeroFill
  have hleading : retained + zeroFill = offset - before.flatten.length := by omega
  have hhead : before.flatten ++ (piece.take retained ++ List.replicate zeroFill 0)
      = Bytes.extend (before.flatten ++ piece.take (offset - before.flatten.length)) offset := by
    have htake : piece.take (offset - before.flatten.length) = piece.take retained := by
      rw [List.take_eq_take_iff]
      omega
    have hlength : (piece.take retained).length = retained := by
      rw [List.length_take]
      omega
    rw [Bytes.extend, htake, List.length_append, hlength, ← hzero, Nat.sub_sub, List.append_assoc]
  rw [← hleading] at hfits
  have hwrite : Interaction.Ensures (answer.mayFail fails)
      (v.writeFrom path (v.storeName path) ((before ++ piece :: after).map List.length).toArray
        (before.length + 1) retained zeroFill 0 source) t _ :=
    overwrite_ensures hm h rfl (by rw [List.headD_cons]; omega) (by omega) (by simp) hfits hwhole
  rwa [overwritten, List.headD_cons, hhead, hleading, Nat.zero_add] at hwrite

/-- A write that would begin behind more kept bytes than go into a segment stores nothing. -/
theorem write_blocked_ensures
    (hblocked : v.chunkSize ≤ min (offset - before.flatten.length) piece.length) :
    Interaction.Ensures (answer.mayFail fails) (v.write path offset source) m
      (v.Leaves (v.storeName path) fails 0 (before ++ piece :: after).flatten m) := by
  refine write_of_pieces hm hpath hmanifest h (pad_inside_ensures hlow hhigh) ?_
  rintro t rfl
  have hzero : offset - before.flatten.length
      - min (offset - before.flatten.length) piece.length = 0 := by omega
  rw [WritePlan.make_of_inside hlow hhigh]
  dsimp only
  rw [hzero]
  exact writeFrom_blocked h rfl (Nat.min_le_right _ _) hblocked

end Inside

/-- A write that begins where all pieces have ended, or behind that, goes behind them. -/
theorem write_behind_ensures (hm : v.Ready m) (hpath : Path.isBelowRoot path = true)
    (hmanifest : v.HasManifest m (v.storeName path)) (h : v.Pieces m (v.storeName path) pieces)
    (hend : pieces.flatten.length ≤ offset) (hwhole : source.failure = none)
    (hfits : pieces.length + (offset + source.bytes.length) / v.chunkSize < Segment.maxSequence) :
    Interaction.Ensures (answer.mayFail fails) (v.write path offset source) m
      (v.Leaves (v.storeName path) fails source.bytes.length
        (Bytes.extend pieces.flatten offset ++ source.bytes) m) := by
  have hchunk := v.chunkSize_pos
  obtain ⟨stop, hstop⟩ := Spans.exists_stop v.chunkSize pieces
  rcases Nat.lt_or_ge offset stop with hin | hbeyond
  · cases hstop with
    | nil => exact absurd hin (Nat.not_lt_zero _)
    | last before piece =>
      have hall : (before ++ [piece]).flatten = before.flatten ++ piece := by
        rw [List.flatten_append, List.flatten_singleton]
      rw [hall, List.length_append] at hend
      have hquot : (offset - before.flatten.length + source.bytes.length) / v.chunkSize
          ≤ (offset + source.bytes.length) / v.chunkSize := Nat.div_le_div_right (by omega)
      rw [List.length_append, List.length_singleton] at hfits
      have hlow : before.flatten.length ≤ offset := by omega
      have hhigh : offset < before.flatten.length + v.chunkSize := by omega
      have hwrite : Interaction.Ensures (answer.mayFail fails) (v.write path offset source) m _ :=
        write_inside_ensures hm hpath hmanifest h hlow (.inr ⟨rfl, hhigh⟩) hwhole (by omega)
          (by omega)
      rwa [Bytes.leftover_singleton hchunk (by omega), List.append_nil,
        List.take_of_length_le (by omega), ← hall] at hwrite
  · have hquot : (offset - stop) / v.chunkSize
        + ((offset - stop) % v.chunkSize + source.bytes.length) / v.chunkSize
          ≤ (offset + source.bytes.length) / v.chunkSize := by
      rw [← Nat.mul_add_div hchunk, ← Nat.add_assoc, Nat.div_add_mod]
      exact Nat.div_le_div_right (by omega)
    have hgap : (offset - stop) / v.chunkSize ≤ (offset + source.bytes.length) / v.chunkSize :=
      Nat.div_le_div_right (by omega)
    have hwhere : stop + (offset - stop) / v.chunkSize * v.chunkSize
        + (offset - stop) % v.chunkSize = offset := by
      rw [Nat.add_assoc, Nat.div_add_mod']
      omega
    refine write_of_pieces hm hpath hmanifest h
      (padPieces_ensures hm h hstop hbeyond (by omega)) ?_
    intro t ht
    obtain ⟨ht, padded, hpadded, hlength, hflatten⟩ := ht
    have hlong := hstop.length_le
    rw [WritePlan.make_of_beyond (hstop.locate hbeyond), List.length_map]
    dsimp only
    rw [← List.append_nil padded] at hpadded
    have hwrite : Interaction.Ensures (answer.mayFail fails)
        (v.writeFrom path (v.storeName path) (pieces.map List.length).toArray
          (pieces.length + (offset - stop) / v.chunkSize + 1) 0 ((offset - stop) % v.chunkSize) 0
          source) t _ :=
      overwrite_ensures (ht.ready hm) hpadded hlength (Nat.zero_le _)
        (by rw [Nat.zero_add]; exact Nat.mod_lt _ hchunk) (by simp) (by rw [Nat.zero_add]; omega)
        hwhole
    rw [overwritten, Bytes.leftover_nil, List.take_zero, List.nil_append, List.append_nil,
      Nat.zero_add, hflatten, Bytes.extend_append_zeros (by omega), hwhere] at hwrite
    rw [Nat.add_right_comm]
    exact hwrite.mono fun _ _ h => h.of_changed ht

end SegmentedFiles.Volume
