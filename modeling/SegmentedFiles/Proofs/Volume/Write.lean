import SegmentedFiles.Proofs.Volume.Pad
import SegmentedFiles.Proofs.Volume.Source

/-! # Writing over the segments of a file

Once a file is filled up to the segment that a write begins in, it is written segment by segment
(`writeFrom_ensures`). After each segment the file holds the old bytes with those that have been read
in their place, so a write that stops has done what a shorter one does (`write_ensures`). -/

namespace SegmentedFiles.Volume

open Bytes (chunkLength?)
open MemoryStore (answer)
open VolumeAction

variable {v : Volume} {m t : MemoryStore} {name path : String} {content : Bytes}
  {fails : StoreCall → Prop} {i offset : Nat}

/-! ## One segment -/

variable {retained oldLength : Nat}

/-- What comes before the new data in a segment is read or is zeros. -/
theorem segmentHead_of_segment {s : Nat} {segment : Bytes} (zeroFill : Nat)
    (hsegment : 0 < retained → v.HasSegment m name s segment) (hretained : retained ≤ segment.length) :
    Ensures (answer.mayFail fails)
      (v.segmentHead path (Segment.name name s) retained zeroFill) m
      (fun head t => t = m ∧ head.bytes = segment.take retained ++ List.replicate zeroFill 0)
      fun _ t => t = m ∧ ∃ call, fails call := by
  unfold segmentHead
  dsimp only
  split
  · next hzero =>
    rw [pure_bind, hzero, List.take_zero]
    exact ensures_pure ⟨rfl, by simp⟩
  · next hpos =>
    obtain ⟨o, ho, hplain, rfl⟩ := hsegment (Nat.pos_of_ne_zero hpos)
    have hsize : retained ≤ (m.resolve o).size := by
      rwa [MemoryStore.resolve_of_plain hplain, ← Payload.length_bytes]
    refine ensures_at_bind (MemoryStore.answer_get_bounded ho (Nat.pos_of_ne_zero hpos) hsize)
      (ensures_pure ⟨rfl, ?_⟩) fun _ hcall => ⟨rfl, _, hcall⟩
    rw [Payload.bytes_append, Payload.bytes_zeros, Payload.bytes_extract,
      MemoryStore.resolve_of_plain hplain, List.drop_zero, Nat.sub_zero]

/-- What a segment has behind a part of it is read. -/
theorem segmentTail_of_segment {s size : Nat} {segment : Bytes}
    (hsegment : v.HasSegment m name s segment) (hlength : oldLength = segment.length)
    (hsize : size < oldLength) :
    Ensures (answer.mayFail fails)
      (v.segmentTail path (Segment.name name s) size oldLength) m
      (fun tail t => t = m ∧ tail.bytes = segment.drop size)
      fun _ t => t = m ∧ ∃ call, fails call := by
  obtain ⟨o, ho, hplain, rfl⟩ := hsegment
  have hwhole : oldLength ≤ (m.resolve o).size := by
    rw [MemoryStore.resolve_of_plain hplain, ← Payload.length_bytes, hlength]
  refine ensures_at_ok (MemoryStore.answer_get_bounded ho hsize hwhole) ⟨rfl, ?_⟩
    fun _ hcall => ⟨rfl, _, hcall⟩
  rw [Payload.bytes_extract, MemoryStore.resolve_of_plain hplain,
    List.take_of_length_le (by rw [List.length_drop, hlength])]

theorem segmentHead_ensures (zeroFill : Nat) (hstores : v.Stores m name content)
    (hkept : i * v.chunkSize + retained ≤ content.length) (hretained : retained ≤ v.chunkSize) :
    Ensures (answer.mayFail fails)
      (v.segmentHead path (Segment.name name (i + 1)) retained zeroFill) m
      (fun head t => t = m ∧ head.bytes
        = (content.drop (i * v.chunkSize)).take retained ++ List.replicate zeroFill 0)
      fun _ t => t = m ∧ ∃ call, fails call := by
  have hlength : ((content.drop (i * v.chunkSize)).take v.chunkSize).length
      = min v.chunkSize (content.length - i * v.chunkSize) := by
    rw [List.length_take, List.length_drop]
  refine (segmentHead_of_segment zeroFill (fun hpos => hstores.object (by omega)) (by omega)).mono ?_
    fun _ _ h => h
  intro head t ht
  rwa [List.take_take, Nat.min_eq_left hretained] at ht

variable {zeroFill : Nat}

theorem segmentTail_ensures {size : Nat} (hstores : v.Stores m name content)
    (hlength : oldLength = min v.chunkSize (content.length - i * v.chunkSize))
    (hsize : size < oldLength) :
    Ensures (answer.mayFail fails)
      (v.segmentTail path (Segment.name name (i + 1)) size oldLength) m
      (fun tail t => t = m ∧
        tail.bytes = (content.drop (i * v.chunkSize + size)).take (oldLength - size))
      fun _ t => t = m ∧ ∃ call, fails call := by
  refine (segmentTail_of_segment (hstores.object (by omega))
    (by rw [List.length_take, List.length_drop, hlength]) hsize).mono ?_ fun _ _ h => h
  intro tail t ht
  obtain ⟨rfl, hbytes⟩ := ht
  refine ⟨rfl, ?_⟩
  rw [hbytes, List.drop_take, List.drop_drop, List.take_eq_take_iff, List.length_drop]
  omega

/-- Kept bytes, zeros and data in the place of a segment are the data at its offset. -/
theorem splice_head {data : Bytes} {start : Nat} (hkept : start + retained ≤ content.length)
    (hzero : zeroFill = 0 ∨ content.length ≤ start + retained) :
    content.splice start ((content.drop start).take retained ++ List.replicate zeroFill 0 ++ data)
      = content.splice (start + retained + zeroFill) data := by
  rw [List.append_assoc, Bytes.splice_kept_append rfl hkept]
  rcases hzero with rfl | hend
  · rfl
  · exact Bytes.splice_zeros_append hend

/-- A segment begins with new bytes and keeps what it has behind them. -/
theorem putOver_ensures {piece : Payload} (hm : v.Ready m) (hstores : v.Stores m name content)
    (hlength : oldLength = min v.chunkSize (content.length - i * v.chunkSize))
    (hpos : 0 < piece.size) (hshort : piece.size < oldLength) :
    Ensures (answer.mayFail fails) (do
        let tail ← v.segmentTail path (Segment.name name (i + 1)) piece.size oldLength
        v.putSegment path (Segment.name name (i + 1)) (piece ++ tail)) m
      (fun _ t => v.SegmentsChanged name m t ∧
        v.Stores t name (content.splice (i * v.chunkSize) piece.bytes))
      fun _ t => t = m ∧ ∃ call, fails call := by
  have hwhole := hstores.fits
  refine (segmentTail_ensures hstores hlength hshort).bind ?_
  intro tail t ht
  obtain ⟨rfl, hbytes⟩ := ht
  have hall : (piece ++ tail).size = oldLength := by
    rw [← Payload.length_bytes, Payload.bytes_append, List.length_append, Payload.length_bytes,
      hbytes, List.length_take, List.length_drop]
    omega
  refine (putSegment_ensures hm hstores (by omega) (by omega) (by omega) (by omega)
    (by omega)).mono ?_ fun _ _ h => h
  intro _ u hu
  obtain ⟨hu, hplaced⟩ := hu
  rw [Payload.bytes_append, hbytes, ← Payload.length_bytes, Bytes.splice_append_kept] at hplaced
  exact ⟨hu, hplaced⟩

/-- A segment is stored with the data in it, and keeps what it has behind the last of the data. -/
theorem commitSegment_ensures {head data : Payload} {last commit : Bool} (hm : v.Ready m)
    (hstores : v.Stores m name content) (hkept : i * v.chunkSize + retained ≤ content.length)
    (hzero : zeroFill = 0 ∨ content.length ≤ i * v.chunkSize + retained)
    (hhead : head.bytes
      = (content.drop (i * v.chunkSize)).take retained ++ List.replicate zeroFill 0)
    (hroom : retained + zeroFill + data.size ≤ v.chunkSize)
    (hlast : last = false → retained + zeroFill + data.size = v.chunkSize)
    (hcommit : commit = (decide (0 < data.size) || decide (0 < zeroFill)))
    (hlength : oldLength = min v.chunkSize (content.length - i * v.chunkSize))
    (hfits : i * v.chunkSize + retained + zeroFill + data.size
      ≤ v.chunkSize * Segment.maxSequence) :
    Ensures (answer.mayFail fails)
      (v.commitSegment path (Segment.name name (i + 1)) oldLength head data last commit) m
      (fun _ t => v.SegmentsChanged name m t ∧
        v.Stores t name (content.splice (i * v.chunkSize + retained + zeroFill) data.bytes))
      fun _ t => t = m ∧ ∃ call, fails call := by
  have hsize : (head ++ data).size = retained + zeroFill + data.size := by
    rw [← Payload.length_bytes, Payload.bytes_append, hhead, List.length_append, List.length_append,
      List.length_take, List.length_drop, List.length_replicate, Payload.length_bytes]
    omega
  have hspliced : content.splice (i * v.chunkSize) (head ++ data).bytes
      = content.splice (i * v.chunkSize + retained + zeroFill) data.bytes := by
    rw [Payload.bytes_append, hhead]
    exact splice_head hkept hzero
  unfold commitSegment
  dsimp only
  split
  · next hset =>
    have hpos : 0 < data.size ∨ 0 < zeroFill := by simpa [hset] using hcommit
    rw [← hspliced]
    split
    · next htail =>
      simp only [Bool.and_eq_true, decide_eq_true_eq] at htail
      exact putOver_ensures hm hstores hlength (by omega) htail.2
    · next hno =>
      have hend : last = true → oldLength ≤ (head ++ data).size := by
        intro htrue
        simpa [htrue] using hno
      have hempty : head ++ data ++ ByteArray.empty = head ++ data := by
        rw [← Payload.bytes_inj, Payload.bytes_append, Payload.bytes_empty, List.append_nil]
      rw [pure_bind, hempty]
      refine putSegment_ensures hm hstores (by omega) (by omega) (by omega) ?_ (by omega)
      cases last with
      | true =>
        have := hend rfl
        omega
      | false =>
        have := hlast rfl
        omega
  · next hunset =>
    have hnothing : data.size = 0 ∧ zeroFill = 0 := by
      simp only [Bool.not_eq_true] at hunset
      simpa [hunset] using hcommit.symm
    have hdata : data.bytes = [] := List.length_eq_zero_iff.1 (by rw [Payload.length_bytes]; omega)
    rw [hdata, Bytes.splice_nil, Bytes.extend_of_le (by omega)]
    exact ensures_pure ⟨.refl v name m, hstores⟩

/-! ## All segments -/

/-- What may come of the data of a source written over a content at an offset: all of it is stored, or
as much as the failure says, and then a call failed or the data broke off. -/
def WrittenFrom (v : Volume) (name : String) (fails : StoreCall → Prop) (source : Source)
    (content : Bytes) (offset written : Nat) (m : MemoryStore) (r : Except WriteFailure Nat)
    (t : MemoryStore) : Prop :=
  v.SegmentsChanged name m t ∧
    match r with
    | .ok count => source.failure = none ∧ count = written + source.bytes.length ∧
        v.Stores t name (content.splice offset source.bytes)
    | .error failure => ((∃ call, fails call) ∨ source.failure ≠ none) ∧
        ∃ n, n ≤ source.bytes.length ∧ failure.written = written + n ∧
          v.Stores t name (if n = 0 then content else content.splice offset (source.bytes.take n))

/-- Once a segment is stored, what comes of the rest of the data comes of all of it. -/
theorem WrittenFrom.of_rest {source rest : Source} {data : Bytes} {written : Nat} {u : MemoryStore}
    {r : Except WriteFailure Nat} (hu : v.SegmentsChanged name m u)
    (hdata : source.bytes = data ++ rest.bytes) (hsome : 0 < data.length)
    (hfailure : rest.failure = source.failure)
    (h : v.WrittenFrom name fails rest (content.splice offset data) (offset + data.length)
      (written + data.length) u r t) :
    v.WrittenFrom name fails source content offset written m r t := by
  obtain ⟨ht, hr⟩ := h
  have hlength : source.bytes.length = data.length + rest.bytes.length := by
    rw [hdata, List.length_append]
  refine ⟨hu.trans ht, ?_⟩
  cases r with
  | ok count =>
    obtain ⟨hnone, rfl, hall⟩ := hr
    rw [Bytes.splice_splice, ← hdata] at hall
    exact ⟨hfailure ▸ hnone, by omega, hall⟩
  | error failure =>
    obtain ⟨hblame, n, hn, hcount, hpart⟩ := hr
    refine ⟨hfailure ▸ hblame, data.length + n, by omega, by omega, ?_⟩
    rw [if_neg (by omega), hdata, List.take_length_add_append]
    split at hpart
    · next hzero =>
      rw [hzero, List.take_zero, List.append_nil]
      exact hpart
    · rwa [Bytes.splice_splice] at hpart

/-- From segment `i` on, `existing` says how long the segments of a content are. -/
def SegmentLengths (v : Volume) (existing : Array Nat) (i : Nat) (content : Bytes) : Prop :=
  ∀ j, i ≤ j → existing.getD j 0 = min v.chunkSize (content.length - j * v.chunkSize)

/-- What is stored in a segment does not change how long the later ones are. -/
theorem SegmentLengths.splice {existing : Array Nat} {data : Bytes}
    (h : v.SegmentLengths existing i content)
    (hend : offset + data.length ≤ (i + 1) * v.chunkSize) :
    v.SegmentLengths existing (i + 1) (content.splice offset data) := by
  intro j hj
  have hstart : (i + 1) * v.chunkSize ≤ j * v.chunkSize := Nat.mul_le_mul_right v.chunkSize hj
  rw [h j (by omega), Bytes.length_splice]
  omega

/-- Segment after segment is written as long as there is data. -/
theorem writeFrom_ensures {existing : Array Nat} {written : Nat} {source : Source} (hm : v.Ready m)
    (hstores : v.Stores m name content) (hkept : i * v.chunkSize + retained ≤ content.length)
    (hzero : zeroFill = 0 ∨ content.length ≤ i * v.chunkSize + retained)
    (hroom : retained + zeroFill < v.chunkSize) (hexisting : v.SegmentLengths existing i content)
    (hfits : i * v.chunkSize + retained + zeroFill + source.bytes.length
      ≤ v.chunkSize * Segment.maxSequence) :
    Interaction.Ensures (answer.mayFail fails)
      (v.writeFrom path name existing (i + 1) retained zeroFill written source) m
      (v.WrittenFrom name fails source content (i * v.chunkSize + retained + zeroFill) written m) := by
  -- The induction is on the data that remains: a segment that is not the last takes some of it.
  induction hremaining : source.bytes.length using Nat.strongRecOn
    generalizing i retained zeroFill written source content m with
  | _ remaining ih =>
    subst hremaining
    have hnothing : ∀ e, ((∃ call, fails call) ∨ source.failure ≠ none) →
        v.WrittenFrom name fails source content (i * v.chunkSize + retained + zeroFill) written m
          (.error ⟨written, e⟩) m :=
      fun e hblame => ⟨.refl v name m, hblame, 0, Nat.zero_le _, rfl, hstores⟩
    refine ensures_writeFrom hroom (segmentHead_ensures zeroFill hstores hkept (by omega)) ?size ?failed ?broken ?last ?more
    case size =>
      intro head t ht
      rw [← Payload.length_bytes, ht.2, List.length_append, List.length_take, List.length_drop,
        List.length_replicate]
      omega
    case failed =>
      intro e t ht
      obtain ⟨rfl, hcall⟩ := ht
      exact hnothing e (.inl hcall)
    case broken =>
      intro head t failure ht hbroken
      obtain ⟨rfl, -⟩ := ht
      exact hnothing _ (.inr (by rw [hbroken]; exact Option.some_ne_none _))
    case last =>
      intro head data t ht hwhole hall hroom'
      obtain ⟨rfl, hhead⟩ := ht
      have hcount : data.size = source.bytes.length := by rw [← hall, Payload.length_bytes]
      refine (commitSegment_ensures hm hstores hkept hzero hhead (Nat.le_of_lt hroom')
        (fun hfalse => absurd hfalse.symm Bool.false_ne_true) rfl
        (hexisting i (Nat.le_refl i)) (by omega)).mono ?_ ?_
      · intro _ u hu
        exact ⟨hu.1, hwhole, by rw [hcount], hall ▸ hu.2⟩
      · intro e u hu
        obtain ⟨rfl, hcall⟩ := hu
        exact hnothing e (.inl hcall)
    case more =>
      intro head data rest t ht hfailure hsplit hsome hfull
      obtain ⟨rfl, hhead⟩ := ht
      have hcount : data.bytes.length = data.size := Payload.length_bytes
      have hleft : source.bytes.length = data.size + rest.bytes.length := by
        rw [hsplit, List.length_append, hcount]
      refine (commitSegment_ensures hm hstores hkept hzero hhead (Nat.le_of_eq hfull) (fun _ => hfull)
        (by rw [decide_eq_true hsome, Bool.true_or]) (hexisting i (Nat.le_refl i)) (by omega)).mono ?_ ?_
      · intro _ u hu
        obtain ⟨hu, hstored⟩ := hu
        have hstart : (i + 1) * v.chunkSize = i * v.chunkSize + v.chunkSize :=
          Nat.succ_mul i v.chunkSize
        have hwhere : (i + 1) * v.chunkSize + 0 + 0
            = i * v.chunkSize + retained + zeroFill + data.bytes.length := by omega
        have hgrown : (content.splice (i * v.chunkSize + retained + zeroFill) data.bytes).length
            = max content.length (i * v.chunkSize + retained + zeroFill + data.size) := by
          rw [Bytes.length_splice, hcount]
        have hnext : Interaction.Ensures (answer.mayFail fails)
            (v.writeFrom path name existing (i + 1 + 1) 0 0 (written + data.size) rest) u
            (v.WrittenFrom name fails rest
              (content.splice (i * v.chunkSize + retained + zeroFill) data.bytes)
              ((i + 1) * v.chunkSize + 0 + 0) (written + data.size) u) :=
          ih _ (by omega) (hu.ready hm) hstored (by omega) (.inl rfl) v.chunkSize_pos
            (hexisting.splice (by omega)) (by omega) rfl
        rw [hwhere, ← hcount] at hnext
        rw [← hcount]
        exact hnext.mono fun _ _ h => h.of_rest hu hsplit (by omega) hfailure
      · intro e u hu
        obtain ⟨rfl, hcall⟩ := hu
        exact hnothing e (.inl hcall)

/-! ## The whole write -/

/-- What may come of a write of a source into the file at a path that holds `old`: all of the data is
stored in the place of the old bytes, or as much as the failure says. If that is nothing, the file may
have been extended, but not past the offset. A write fails only where a call fails, the data breaks off
or a file is above the path. -/
def Written (v : Volume) (path : String) (fails : StoreCall → Prop) (source : Source) (old : Bytes)
    (offset : Nat) (m : MemoryStore) (r : Except WriteFailure Nat) (t : MemoryStore) : Prop :=
  v.Confined (v.storeName path) m t ∧
    match r with
    | .ok count => source.failure = none ∧ count = source.bytes.length ∧
        v.Segmented t (v.storeName path) (old.splice offset source.bytes)
    | .error failure =>
        ((∃ call, fails call) ∨ source.failure ≠ none ∨ ¬v.UnderDirectories m path) ∧
        failure.written ≤ source.bytes.length ∧ ∃ z, z ≤ offset ∧ v.Holds t (v.storeName path)
          (if failure.written = 0 then old.extend z
            else old.splice offset (source.bytes.take failure.written))

/-- The file is prepared for a write: it is in segments, and is filled up to the segment in which the
write begins. -/
theorem prepare_pad_ensures {old : Bytes} (hm : v.Ready m) (hpath : Path.isBelowRoot path = true)
    (hholds : v.Holds m (v.storeName path) old)
    (hfits : offset ≤ v.chunkSize * Segment.maxSequence) :
    Ensures (answer.mayFail fails) (v.beginWrite path offset) m
      (fun begun t => v.Confined (v.storeName path) m t ∧
        v.Segmented t (v.storeName path) (old.extend (offset / v.chunkSize * v.chunkSize)) ∧
        ∃ lengths, begun = (WritePlan.make offset lengths v.chunkSize, lengths.toArray) ∧
          ∀ j : Nat, lengths[j]? = chunkLength? v.chunkSize old.length j)
      fun _ t => v.Confined (v.storeName path) m t ∧
        (∃ z, z ≤ offset ∧ v.Holds t (v.storeName path) (old.extend z)) ∧
        ((∃ call, fails call) ∨ ¬v.UnderDirectories m path) := by
  refine ensures_beginWrite (fun hinvalid => ?_) (fun _ => (prepare_ensures hm hpath hholds).mono
    (fun _ _ ht => ht) fun _ t ht => ?_) fun _ lengths t ht => ?_
  · rw [hpath] at hinvalid
    cases hinvalid
  · obtain ⟨ht, hholds, hblame⟩ := ht
    rw [← Bytes.extend_of_le (Nat.zero_le old.length)] at hholds
    exact ⟨ht, ⟨0, Nat.zero_le _, hholds⟩, hblame⟩
  obtain ⟨ht, hsegmented, hlengths⟩ := ht
  obtain ⟨o, ho, hmanifest⟩ := hsegmented.object
  refine (pad_ensures (ht.ready hm) hsegmented.stores hlengths hfits).mono ?_ ?_
  · intro _ u hu
    obtain ⟨hu, hstores⟩ := hu
    exact ⟨ht.trans hu.toConfined, ⟨⟨o, hu.file.trans ho, hmanifest⟩, hstores⟩, lengths, rfl, hlengths⟩
  · intro _ u hu
    obtain ⟨hu, ⟨z, hz, hstores⟩, hcall⟩ := hu
    exact ⟨ht.trans hu.toConfined, ⟨z, hz, .segmented ⟨⟨o, hu.file.trans ho, hmanifest⟩, hstores⟩⟩,
      .inl hcall⟩

/-- Once the file is filled up to the segment in which a write begins, it is written as planned. -/
theorem writeFrom_make_ensures (path : String) (fails : StoreCall → Prop) {lengths : List Nat}
    {source : Source} (hm : v.Ready m)
    (hstores : v.Stores m name (content.extend (offset / v.chunkSize * v.chunkSize)))
    (hlengths : ∀ j, lengths[j]? = chunkLength? v.chunkSize content.length j)
    (hfits : offset + source.bytes.length ≤ v.chunkSize * Segment.maxSequence) :
    Interaction.Ensures (answer.mayFail fails)
      (v.writeFrom path name lengths.toArray (WritePlan.make offset lengths v.chunkSize).sequence
        (WritePlan.make offset lengths v.chunkSize).retained
        (WritePlan.make offset lengths v.chunkSize).zeroFill 0 source) m
      (v.WrittenFrom name fails source (content.extend (offset / v.chunkSize * v.chunkSize)) offset 0 m) := by
  have hchunk := v.chunkSize_pos
  have hmod : offset / v.chunkSize * v.chunkSize + offset % v.chunkSize = offset :=
    Nat.div_add_mod' offset v.chunkSize
  have hlt : offset % v.chunkSize < v.chunkSize := Nat.mod_lt offset hchunk
  rw [WritePlan.make_of_chunkLengths hchunk hlengths]
  dsimp only
  have hgrown : (content.extend (offset / v.chunkSize * v.chunkSize)).length
      = max content.length (offset / v.chunkSize * v.chunkSize) := Bytes.length_extend
  have hexisting : v.SegmentLengths lengths.toArray (offset / v.chunkSize)
      (content.extend (offset / v.chunkSize * v.chunkSize)) := by
    intro j hj
    have := Nat.mul_le_mul_right v.chunkSize hj
    rw [Array.getD_eq_getD_getElem?, List.getElem?_toArray, hlengths, hgrown]
    unfold chunkLength?
    split
    · rw [Option.getD_some]
      omega
    · rw [Option.getD_none]
      omega
  generalize hretained : min (offset % v.chunkSize)
    (content.length - offset / v.chunkSize * v.chunkSize) = retained
  have hwhere : offset / v.chunkSize * v.chunkSize + retained + (offset % v.chunkSize - retained)
      = offset := by omega
  have hwrite : Interaction.Ensures (answer.mayFail fails)
      (v.writeFrom path name lengths.toArray (offset / v.chunkSize + 1) retained
        (offset % v.chunkSize - retained) 0 source) m
      (v.WrittenFrom name fails source (content.extend (offset / v.chunkSize * v.chunkSize))
        (offset / v.chunkSize * v.chunkSize + retained + (offset % v.chunkSize - retained)) 0 m) :=
    writeFrom_ensures hm hstores (by omega) (by omega) (by omega) hexisting (by omega)
  rwa [hwhere] at hwrite

theorem write_ensures {source : Source} {old : Bytes} (hm : v.Ready m)
    (hpath : Path.isBelowRoot path = true) (hholds : v.Holds m (v.storeName path) old)
    (hfits : offset + source.bytes.length ≤ v.chunkSize * Segment.maxSequence) :
    Interaction.Ensures (answer.mayFail fails) (v.write path offset source) m
      (v.Written path fails source old offset m) := by
  have hstart : offset / v.chunkSize * v.chunkSize ≤ offset := Nat.div_mul_le_self _ _
  refine ensures_write ((prepare_pad_ensures hm hpath hholds (by omega)).mono (fun _ _ ht => ht) ?_) ?_
  · intro e t ht
    obtain ⟨ht, ⟨z, hz, hextended⟩, hblame⟩ := ht
    exact ⟨ht, hblame.imp_right .inr, Nat.zero_le _, z, hz, hextended⟩
  intro plan lengths t ht
  obtain ⟨ht, hsegmented, lengths, heq, hlengths⟩ := ht
  obtain ⟨rfl, rfl⟩ := Prod.mk.inj heq
  obtain ⟨o, ho, hmanifest⟩ := hsegmented.object
  refine (writeFrom_make_ensures path fails (ht.ready hm) hsegmented.stores hlengths hfits).mono ?_
  intro r u hu
  obtain ⟨hu, hr⟩ := hu
  have hfile : ∀ {content}, v.Stores u (v.storeName path) content →
      v.Segmented u (v.storeName path) content :=
    fun hstores => ⟨⟨o, hu.file.trans ho, hmanifest⟩, hstores⟩
  refine ⟨ht.trans hu.toConfined, ?_⟩
  cases r with
  | ok count =>
    obtain ⟨hnone, hcount, hstores⟩ := hr
    rw [Bytes.splice_extend (by omega)] at hstores
    exact ⟨hnone, by omega, hfile hstores⟩
  | error failure =>
    obtain ⟨hblame, n, hn, hcount, hstores⟩ := hr
    rw [Nat.zero_add] at hcount
    rw [Bytes.splice_extend (by omega), ← hcount] at hstores
    exact ⟨hblame.imp_right .inl, by omega, _, by omega, .segmented (hfile hstores)⟩

end SegmentedFiles.Volume
