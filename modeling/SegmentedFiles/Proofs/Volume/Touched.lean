import SegmentedFiles.Proofs.Store.Places
import SegmentedFiles.Proofs.Store.Recorded
import SegmentedFiles.Proofs.Volume.Resume

/-! # Which segments a write puts

The segments that a write puts are numbered without a gap, wherever the puts come from: the last segment
is filled up, segments of zeros follow, and then the segments with the data. Each step puts segments from
a number on and leaves those before it (`PutsFrom`), and steps in a row do (`PutsFrom.trans`); so each
segment is put once, with the bytes that it has in the end. Taken together they are the segments in which
something is written: those whose chunks meet the part of the file from where it ended, or from the
offset, up to the end of the data (`write_puts`). -/

namespace SegmentedFiles

open Bytes (chunkCount)
open MemoryStore (answer)

/-- How many chunks of this size have a part between two positions. -/
def touchedCount (chunk start stop : Nat) : Nat :=
  if start < stop then chunkCount chunk stop - start / chunk else 0

/-- The numbers of the segments with these chunks. -/
def touched (chunk start stop : Nat) : List Nat :=
  List.range' (start / chunk + 1) (touchedCount chunk start stop)

theorem pairwise_touched {chunk start stop : Nat} : (touched chunk start stop).Pairwise (· < ·) :=
  List.pairwise_lt_range'

theorem mem_touched {chunk start stop s : Nat} (hchunk : 0 < chunk) : s ∈ touched chunk start stop ↔
    0 < s ∧ ∃ p, (s - 1) * chunk ≤ p ∧ p < s * chunk ∧ start ≤ p ∧ p < stop := by
  have hcount : ∀ i, i < chunkCount chunk stop ↔ i * chunk < stop :=
    fun i => Bytes.lt_chunkCount_iff hchunk
  have hstart : start / chunk * chunk + start % chunk = start := Nat.div_add_mod' start chunk
  have hmod : start % chunk < chunk := Nat.mod_lt start hchunk
  rw [touched, touchedCount, List.mem_range'_1]
  generalize start / chunk = first at *
  constructor
  · intro h
    obtain ⟨hfirst, hlast⟩ := h
    obtain ⟨i, rfl⟩ : ∃ i, s = i + 1 := Nat.exists_eq_add_one_of_ne_zero (by omega)
    rw [Nat.add_sub_cancel, Nat.succ_mul]
    split at hlast
    · next hsome =>
      have hreach := (hcount i).1 (by omega)
      refine ⟨Nat.succ_pos i, max (i * chunk) start, ?_⟩
      by_cases hi : i = first
      · rw [hi] at hreach ⊢
        omega
      · have hnext := Bytes.mul_add_le_of_lt chunk (show first < i by omega)
        omega
    · omega
  · intro h
    obtain ⟨hpos, p, hlow, hhigh, hfrom, hto⟩ := h
    obtain ⟨i, rfl⟩ : ∃ i, s = i + 1 := Nat.exists_eq_add_one_of_ne_zero (Nat.ne_of_gt hpos)
    rw [Nat.add_sub_cancel] at hlow
    rw [Nat.succ_mul] at hhigh
    have hreach := (hcount i).2 (by omega)
    have hi : first ≤ i := by
      refine Nat.not_lt.1 fun hlt => ?_
      have hnext := Bytes.mul_add_le_of_lt chunk hlt
      omega
    rw [if_pos (by omega)]
    omega

/-- What a plan asks for before the first segment with data: the `n` segments from number `i` on, of
which the first may be there and be filled up. -/
structure WritePlan.PadsFrom (plan : WritePlan) (i n : Nat) : Prop where
  stop : plan.zeroStop = i + n
  tail : ∀ tail, plan.completeTail = some tail → tail.sequence = i ∧ plan.zeroStart = i + 1 ∧ 0 < n
  start : plan.completeTail = none → plan.zeroStart = i

/-- A file is filled up from the segment in which it ends, or in which the write begins if that comes
before, to the one in which the write begins. -/
theorem WritePlan.make_padsFrom {offset chunk length : Nat} {lengths : List Nat} (hchunk : 0 < chunk)
    (hlengths : ∀ j, lengths[j]? = Bytes.chunkLength? chunk length j) :
    (make offset lengths chunk).PadsFrom (min length offset / chunk + 1)
      (offset / chunk - min length offset / chunk) := by
  have hle : min length offset / chunk ≤ offset / chunk :=
    Nat.div_le_div_right (Nat.min_le_right _ _)
  have hoffset : offset / chunk * chunk + offset % chunk = offset := Nat.div_add_mod' offset chunk
  have hmod : offset % chunk < chunk := Nat.mod_lt offset hchunk
  have hend : length ≤ chunkCount chunk length * chunk :=
    (Bytes.chunkCount_le_iff hchunk).1 (Nat.le_refl _)
  have hreach : ∀ i, i < chunkCount chunk length → i * chunk < length :=
    fun i => (Bytes.lt_chunkCount_iff hchunk).1
  rw [make_of_chunkLengths hchunk hlengths]
  refine ⟨?_, ?_, ?_⟩
  · dsimp only
    omega
  · dsimp only
    intro tail htail
    split at htail
    · next hshort =>
      obtain ⟨hbeyond, hlt⟩ := hshort
      obtain rfl := Option.some.inj htail
      dsimp only
      have hstart := Nat.mul_le_mul_right chunk hbeyond
      obtain ⟨i, hi⟩ : ∃ i, chunkCount chunk length = i + 1 := by
        refine Nat.exists_eq_add_one_of_ne_zero fun hzero => ?_
        rw [hzero] at hlt
        omega
      have hfirst : min length offset / chunk = i := by
        have hlast := hreach i (by omega)
        rw [hi, Nat.succ_mul] at hlt
        refine Nat.div_eq_of_lt_le ?_ ?_
        · omega
        · rw [Nat.succ_mul]
          omega
      omega
    · cases htail
  · dsimp only
    intro hnone
    split at hnone
    · cases hnone
    · next hwhole =>
      have hfirst : min length offset / chunk = min (chunkCount chunk length) (offset / chunk) := by
        by_cases hbeyond : chunkCount chunk length ≤ offset / chunk
        · have hstart := Nat.mul_le_mul_right chunk hbeyond
          have hfull : min length offset = chunkCount chunk length * chunk := by omega
          rw [Nat.min_eq_left hbeyond, hfull, Nat.mul_div_cancel _ hchunk]
        · have hlast := hreach (offset / chunk) (by omega)
          rw [Nat.min_eq_right (Nat.le_of_not_le hbeyond)]
          refine Nat.div_eq_of_lt_le ?_ ?_
          · omega
          · rw [Nat.succ_mul]
            omega
      rw [hfirst]

/-- Whole chunks come on top. -/
theorem chunkCount_mul_add {size length : Nat} (hsize : 0 < size) (i : Nat) :
    chunkCount size (i * size + length) = i + chunkCount size length := by
  have hround : i * size + length + size - 1 = length + size - 1 + i * size := by omega
  rw [chunkCount, chunkCount, hround, Nat.add_mul_div_right _ _ hsize, Nat.add_comm]

/-- The number of segments that are put for `length` bytes of data, if the first begins with bytes that
it keeps and with zeros. Without data or zeros there is none. -/
def putCount (chunk retained zeroFill length : Nat) : Nat :=
  if 0 < zeroFill + length then chunkCount chunk (retained + zeroFill + length) else 0

/-- What does not fill a chunk goes into one segment. -/
theorem putCount_of_lt {chunk retained zeroFill length : Nat}
    (h : retained + zeroFill + length < chunk) :
    putCount chunk retained zeroFill length = if 0 < length ∨ 0 < zeroFill then 1 else 0 := by
  have hchunk : 0 < chunk := by omega
  have hle : chunkCount chunk (retained + zeroFill + length) ≤ 1 :=
    (Bytes.chunkCount_le_iff hchunk).2 (by omega)
  unfold putCount
  by_cases hsome : 0 < zeroFill + length
  · have hpos : 0 < chunkCount chunk (retained + zeroFill + length) :=
      (Bytes.lt_chunkCount_iff hchunk).2 (by omega)
    rw [if_pos hsome, if_pos (by omega)]
    omega
  · rw [if_neg hsome, if_neg (by omega)]

/-- What fills a chunk goes into one segment, and the rest into those behind it. -/
theorem putCount_add {chunk retained zeroFill first length : Nat} (hpos : 0 < first)
    (hfull : retained + zeroFill + first = chunk) :
    putCount chunk retained zeroFill (first + length) = 1 + putCount chunk 0 0 length := by
  have hchunk : 0 < chunk := by omega
  have hcount : chunkCount chunk (chunk + length) = 1 + chunkCount chunk length := by
    rw [← chunkCount_mul_add hchunk 1, Nat.one_mul]
  have hnone : chunkCount chunk 0 ≤ 0 := (Bytes.chunkCount_le_iff hchunk).2 (by omega)
  unfold putCount
  rw [if_pos (by omega), ← Nat.add_assoc, hfull, hcount, Nat.add_zero, Nat.zero_add]
  by_cases hsome : 0 < length
  · rw [if_pos hsome]
  · rw [if_neg hsome, Nat.eq_zero_of_not_pos hsome]
    omega

/-- What is filled up with zeros and what the data goes into are together what is touched. -/
theorem pads_add_putCount {offset chunk length count retained : Nat} (hchunk : 0 < chunk)
    (hretained : retained = min (offset % chunk) (length - offset / chunk * chunk)) :
    offset / chunk - min length offset / chunk
        + putCount chunk retained (offset % chunk - retained) count
      = touchedCount chunk (min length offset) (offset + count) := by
  have hle : min length offset / chunk ≤ offset / chunk :=
    Nat.div_le_div_right (Nat.min_le_right _ _)
  have hoffset : offset / chunk * chunk + offset % chunk = offset := Nat.div_add_mod' offset chunk
  have hcount : chunkCount chunk (offset + count)
      = offset / chunk + chunkCount chunk (offset % chunk + count) := by
    rw [← chunkCount_mul_add hchunk, ← Nat.add_assoc, hoffset]
  have hleading : retained + (offset % chunk - retained) = offset % chunk := by omega
  rw [putCount, touchedCount, hleading, hcount]
  by_cases hput : 0 < offset % chunk - retained + count
  · rw [if_pos hput, if_pos (by omega)]
    omega
  · rw [if_neg hput]
    split
    · next hgap =>
      have hnone : chunkCount chunk 0 ≤ 0 := (Bytes.chunkCount_le_iff hchunk).2 (Nat.zero_le _)
      rw [show offset % chunk + count = 0 by omega]
      omega
    · next hgap =>
      rw [show min length offset = offset by omega]
      omega

namespace Volume

open VolumeAction

variable {v : Volume} {name path : String} {s t u : Recorded MemoryStore} {i n k : Nat}

/-- The target of a put of a segment, and the bytes that the segment has. -/
def segmentPut (v : Volume) (m : MemoryStore) (name : String) (i : Nat) : ObjectTarget × Bytes :=
  (⟨v.segmentsContainer, Segment.name name i⟩, (v.segment? m name i).getD [])

theorem Stores.segmentPut {m : MemoryStore} {content : Bytes} (h : v.Stores m name content) (hpos : 0 < i)
    (hreach : (i - 1) * v.chunkSize < content.length) :
    v.segmentPut m name i = (⟨v.segmentsContainer, Segment.name name i⟩,
      (content.drop ((i - 1) * v.chunkSize)).take v.chunkSize) := by
  have hchunk := h.chunk (i - 1)
  rw [Nat.sub_add_cancel hpos, Bytes.chunk?_of_lt hreach] at hchunk
  rw [Volume.segmentPut, hchunk, Option.getD_some]

/-- From `s` to `t` the `n` segments from number `i` on are put in their order, each once, with the
bytes that they have in `t`. Nothing else is put, and the segments before them are as they were. -/
structure PutsFrom (v : Volume) (name : String) (i n : Nat) (s t : Recorded MemoryStore) : Prop where
  puts : t.puts = s.puts ++ (List.range' i n).map (v.segmentPut t.store name)
  before : ∀ j, j < i → v.segment? t.store name j = v.segment? s.store name j

namespace PutsFrom

theorem refl (v : Volume) (name : String) (i : Nat) (s : Recorded MemoryStore) :
    v.PutsFrom name i 0 s s :=
  ⟨(List.append_nil _).symm, fun _ _ => rfl⟩

theorem trans (h : v.PutsFrom name i n s t) (h' : v.PutsFrom name (i + n) k t u) :
    v.PutsFrom name i (n + k) s u := by
  refine ⟨?_, fun j hj => (h'.before j (by omega)).trans (h.before j hj)⟩
  have hkept : (List.range' i n).map (v.segmentPut u.store name)
      = (List.range' i n).map (v.segmentPut t.store name) := by
    refine List.map_congr_left fun j hj => ?_
    rw [segmentPut, h'.before j (List.mem_range'_1.1 hj).2, segmentPut]
  have hrange : List.range' i (n + k) = List.range' i n ++ List.range' (i + n) k := by
    rw [List.range'_append_1]
  rw [h'.puts, h.puts, hrange, List.map_append, hkept, List.append_assoc]

/-- A call that leaves the segments of the file and puts nothing. -/
theorem of_no_put (call : StoreCall) (hcalls : t.calls = call :: s.calls) (hput : call.put? = none)
    (hsame : t.store = s.store) (i : Nat) : v.PutsFrom name i 0 s t := by
  refine ⟨?_, fun _ _ => by rw [hsame]⟩
  rw [Recorded.puts_of_cons hcalls, hput]
  rfl

end PutsFrom

/-! ## Calls -/

/-- A call that only reads puts nothing. -/
theorem read_putsFrom {call : StoreCall} (v : Volume) (name : String) (i : Nat)
    (hput : call.put? = none) (hsame : ∀ m, (answer call m).2 = m) :
    Ensures (answer.recorded.mayFail never) (call.at path) s
      (fun _ t => v.PutsFrom name i 0 s t) fun _ _ => True := by
  refine ensures_at ?_
  intro reply t hreply
  obtain ⟨hcalls, hanswer⟩ := Store.mayFail_recorded_iff.1 hreply
  have hstore : t.store = s.store := by rw [← hsame s.store, hanswer]
  cases reply with
  | ok content => exact .of_no_put _ hcalls hput hstore i
  | error e => exact trivial

theorem putSegment_putsFrom (content : Payload) :
    Ensures (answer.recorded.mayFail never) (v.putSegment path (Segment.name name i) content) s
      (fun _ t => v.PutsFrom name i 1 s t) fun _ _ => True := by
  refine ensures_at ?_
  intro reply t hreply
  obtain ⟨hcalls, hanswer⟩ := Store.mayFail_recorded_iff.1 hreply
  rcases MemoryStore.answer_put_cases s.store v.segmentsContainer (Segment.name name i) content
    (PutOptions.plain fileType) with ⟨m, hm, hobject, hsame⟩ | ⟨e, m, hm, -⟩
  · rw [hm] at hanswer
    obtain ⟨rfl, rfl⟩ := Prod.mk.inj hanswer
    refine ⟨?_, fun j hj => ?_⟩
    · rw [Recorded.puts_of_cons hcalls, List.range'_one, List.map_singleton, segmentPut, segment?,
        hobject]
      rfl
    · have hother : ¬MemoryStore.At v.segmentsContainer (Segment.name name i) v.segmentsContainer
          (Segment.name name j) := fun hat => absurd (Segment.name_inj hat.2).2 (Nat.ne_of_lt hj)
      rw [segment?, hsame _ _ hother, segment?]
  · rw [hm] at hanswer
    obtain ⟨rfl, -⟩ := Prod.mk.inj hanswer
    exact trivial

/-! ## Steps of a write -/

/-- Segments of zeros are put one after another. -/
theorem putZeros_putsFrom : Ensures (answer.recorded.mayFail never)
    (v.putZeros path name (List.range' i n)) s (fun _ t => v.PutsFrom name i n s t) fun _ _ => True := by
  refine ensures_putZeros (v.PutsFrom name i · s) (.refl v name i s) ?_
  intro k t _ ht
  exact (putSegment_putsFrom _).mono (fun _ _ hu => ht.trans hu) fun _ _ h => h

/-- A last segment that is filled up is put once. -/
theorem fillTail_putsFrom (tail : TailCompletion) : Ensures (answer.recorded.mayFail never)
    (v.fillTail path name tail) s (fun _ t => v.PutsFrom name tail.sequence 1 s t) fun _ _ => True := by
  have hread : Ensures (answer.recorded.mayFail never) (v.readTail path name tail) s
      (fun _ t => v.PutsFrom name tail.sequence 0 s t) fun _ _ => True := by
    unfold readTail
    split
    · exact ensures_pure (.refl v name _ s)
    · exact read_putsFrom v name tail.sequence rfl fun _ => rfl
  refine hread.bind ?_
  intro old t ht
  refine (putSegment_putsFrom _).mono ?_ fun _ _ h => h
  intro _ u hu
  exact ht.trans hu

/-- The last segment is filled up, if it is to be, and segments of zeros come after it. -/
theorem pad_putsFrom {plan : WritePlan} (hplan : plan.PadsFrom i n) :
    Ensures (answer.recorded.mayFail never) (v.pad path name plan) s
      (fun _ t => v.PutsFrom name i n s t) fun _ _ => True := by
  rw [pad_eq, WritePlan.zeroSegments, hplan.stop]
  split
  · next tail hsome =>
    obtain ⟨rfl, hstart, hpos⟩ := hplan.tail tail hsome
    obtain ⟨k, rfl⟩ := Nat.exists_eq_add_of_le' hpos
    rw [hstart, show tail.sequence + (k + 1) - (tail.sequence + 1) = k by omega, Nat.add_comm k 1]
    refine (fillTail_putsFrom tail).bind ?_
    intro _ t ht
    exact putZeros_putsFrom.mono (fun _ _ hu => ht.trans hu) fun _ _ h => h
  · next hsome =>
    rw [hplan.start hsome, Nat.add_sub_cancel_left]
    exact putZeros_putsFrom

/-- What comes before the new data in a segment is found out without a put. -/
theorem segmentHead_putsFrom {retained : Nat} {segment : Bytes} (zeroFill : Nat)
    (hsegment : 0 < retained → v.HasSegment s.store name i segment) (hretained : retained ≤ segment.length) :
    Ensures (answer.recorded.mayFail never)
      (v.segmentHead path (Segment.name name i) retained zeroFill) s
      (fun head t => head.size = retained + zeroFill ∧ v.PutsFrom name i 0 s t) fun _ _ => True := by
  have hquiet : Ensures (answer.recorded.mayFail never)
      (v.segmentHead path (Segment.name name i) retained zeroFill) s
      (fun _ t => v.PutsFrom name i 0 s t) fun _ _ => True := by
    unfold segmentHead
    dsimp only
    split
    · exact ensures_pure (.refl v name i s)
    · exact (read_putsFrom v name i rfl fun _ => rfl).bind fun _ _ ht => ensures_pure ht
  refine ((segmentHead_of_segment zeroFill hsegment hretained).and_recorded hquiet).mono ?_
    fun _ _ _ => trivial
  intro head t ht
  obtain ⟨⟨-, hbytes⟩, ht⟩ := ht
  refine ⟨?_, ht⟩
  rw [← Payload.length_bytes, hbytes, List.length_append, List.length_take, List.length_replicate,
    Nat.min_eq_left hretained]

/-- A segment is put once, if anything is to be added to it. -/
theorem commitSegment_putsFrom {oldLength : Nat} {head data : Payload} {last commit : Bool} :
    Ensures (answer.recorded.mayFail never)
      (v.commitSegment path (Segment.name name i) oldLength head data last commit) s
      (fun _ t => v.PutsFrom name i (if commit then 1 else 0) s t) fun _ _ => True := by
  unfold commitSegment
  dsimp only
  cases commit with
  | false => exact ensures_pure (.refl v name i s)
  | true =>
    simp only [if_true]
    split
    · refine (read_putsFrom v name i rfl fun _ => rfl).bind ?_
      intro _ t ht
      refine (putSegment_putsFrom _).mono ?_ fun _ _ h => h
      intro _ u hu
      exact ht.trans hu
    · rw [pure_bind]
      exact putSegment_putsFrom _

/-- Segment after segment is put as long as there is data. -/
theorem writeFrom_putsFrom {existing : Array Nat} {retained zeroFill written : Nat} {source : Source}
    {segment : Bytes} (hsegment : 0 < retained → v.HasSegment s.store name i segment)
    (hretained : retained ≤ segment.length) (hroom : retained + zeroFill < v.chunkSize) :
    Interaction.Ensures (answer.recorded.mayFail never)
      (v.writeFrom path name existing i retained zeroFill written source) s
      fun r t => ∀ count, r = .ok count →
        v.PutsFrom name i (putCount v.chunkSize retained zeroFill source.bytes.length) s t := by
  induction hremaining : source.bytes.length using Nat.strongRecOn
    generalizing i retained zeroFill written source segment s with
  | _ remaining ih =>
    subst hremaining
    refine ensures_writeFrom hroom (segmentHead_putsFrom zeroFill hsegment hretained)
      (fun _ _ ht => ht.1) (fun _ _ _ => nofun) (fun _ _ _ _ _ => nofun) ?last ?more
    case last =>
      intro head data t ht _ hall hshort
      have hcount : data.size = source.bytes.length := by rw [← Payload.length_bytes, hall]
      refine commitSegment_putsFrom.mono ?_ fun _ _ _ => nofun
      intro _ u hu count _
      replace hu := ht.2.trans hu
      simp only [Nat.zero_add, Bool.or_eq_true, decide_eq_true_eq] at hu
      rwa [← hcount, putCount_of_lt hshort]
    case more =>
      intro head data rest t ht _ hsplit hsome hfull
      have htotal : source.bytes.length = data.size + rest.bytes.length := by
        rw [hsplit, List.length_append, Payload.length_bytes]
      refine commitSegment_putsFrom.mono ?_ fun _ _ _ => nofun
      intro _ u hu
      replace hu := ht.2.trans hu
      rw [Nat.zero_add, if_pos rfl] at hu
      have hnone : 0 < 0 → v.HasSegment u.store name (i + 1) [] := fun h => absurd h (Nat.lt_irrefl 0)
      have hnext : Interaction.Ensures (answer.recorded.mayFail never)
          (v.writeFrom path name existing (i + 1) 0 0 (written + data.size) rest) u _ :=
        ih rest.bytes.length (by omega) hnone (Nat.zero_le _) v.chunkSize_pos rfl
      refine hnext.mono ?_
      intro r w hw count hr
      rw [htotal, putCount_add hsome hfull]
      exact hu.trans (hw count hr)

/-- Of a file that has a manifest no more than the segments are looked at. -/
theorem prepare_putsFrom (hmanifest : v.HasManifest s.store (v.storeName path)) (name : String) (i : Nat) :
    Ensures (answer.recorded.mayFail never) (v.prepare path) s
      (fun _ t => v.PutsFrom name i 0 s t) fun _ _ => True := by
  obtain ⟨o, ho, href⟩ := hmanifest
  have hhead : answer.recorded (.head v.container (v.storeName path)) s
      = (.ok (o.info (v.storeName path) (s.store.resolve o).size),
        ⟨.head v.container (v.storeName path) :: s.calls, s.store⟩) := by
    rw [Store.recorded, MemoryStore.answer_head_of_some ho]
  unfold prepare
  dsimp only
  refine ensures_try_bind hhead ?_ fun _ _ hcall => hcall.elim
  dsimp only [StoredObject.info]
  rw [href, if_pos Option.isSome_some, segments_eq]
  simp only [bind_assoc, pure_bind]
  have hquiet : v.PutsFrom name i 0 s ⟨.head v.container (v.storeName path) :: s.calls, s.store⟩ := by
    refine .of_no_put (.head v.container (v.storeName path)) ?_ ?_ ?_ i
    all_goals rfl
  refine (read_putsFrom v name i rfl fun _ => rfl).bind ?_
  intro _ t ht
  exact ensures_pure (hquiet.trans ht)

/-! ## The whole write -/

variable {m : MemoryStore} {content : Bytes} {offset : Nat} {source : Source}

/-- Before the first segment with data, those are put that are filled up with zeros. -/
theorem prepare_pad_putsFrom (hm : v.Ready s.store) (hpath : Path.isBelowRoot path = true)
    (hmanifest : v.HasManifest s.store (v.storeName path))
    (hstores : v.Stores s.store (v.storeName path) content)
    (hfits : offset ≤ v.chunkSize * Segment.maxSequence) :
    Ensures (answer.recorded.mayFail never) (v.beginWrite path offset) s
      (fun begun t => (∃ lengths, begun = (WritePlan.make offset lengths v.chunkSize, lengths.toArray) ∧
          ∀ j : Nat, lengths[j]? = Bytes.chunkLength? v.chunkSize content.length j) ∧
        v.Ready t.store ∧
        v.Stores t.store (v.storeName path) (content.extend (offset / v.chunkSize * v.chunkSize)) ∧
        v.PutsFrom (v.storeName path) (min content.length offset / v.chunkSize + 1)
          (offset / v.chunkSize - min content.length offset / v.chunkSize) s t) fun _ _ => False := by
  refine ensures_beginWrite (fun hinvalid => absurd hpath (by simp [hinvalid]))
    (fun _ => ((prepare_of_manifest hm hmanifest).and_recorded (prepare_putsFrom hmanifest
      (v.storeName path) (min content.length offset / v.chunkSize + 1))).mono (fun _ _ ht => ht)
        fun _ _ hcall => hcall.2.elim fun _ h => h) ?_
  intro _ lengths t ht
  obtain ⟨⟨hsame, rfl⟩, ht⟩ := ht
  have hlengths := hstores.entries_lengths
  rw [← hsame] at hm hstores
  refine ((pad_ensures hm hstores hlengths hfits).and_recorded (pad_putsFrom (WritePlan.make_padsFrom
    v.chunkSize_pos hlengths))).mono ?_ fun _ _ hcall => hcall.2.2.elim fun _ h => h
  intro _ u hu
  obtain ⟨⟨hchanged, hpadded⟩, hu⟩ := hu
  have hall := ht.trans hu
  rw [Nat.zero_add] at hall
  exact ⟨⟨_, rfl, hlengths⟩, hchanged.ready hm, hpadded, hall⟩

/-- A write into a file in segments puts the segments that it touches. -/
theorem write_putsFrom (hm : v.Ready s.store) (hpath : Path.isBelowRoot path = true)
    (hmanifest : v.HasManifest s.store (v.storeName path))
    (hstores : v.Stores s.store (v.storeName path) content) (hwhole : source.failure = none)
    (hfits : offset + source.bytes.length ≤ v.chunkSize * Segment.maxSequence) :
    Interaction.Ensures (answer.recorded.mayFail never) (v.write path offset source) s
      fun r t => r = .ok source.bytes.length ∧
        v.Stores t.store (v.storeName path) (content.splice offset source.bytes) ∧
        v.PutsFrom (v.storeName path) (min content.length offset / v.chunkSize + 1)
          (touchedCount v.chunkSize (min content.length offset) (offset + source.bytes.length)) s t := by
  have hchunk := v.chunkSize_pos
  have hstart : offset / v.chunkSize * v.chunkSize ≤ offset := Nat.div_mul_le_self _ _
  refine ensures_write ((prepare_pad_putsFrom hm hpath hmanifest hstores (by omega)).mono
    (fun _ _ ht => ht) fun _ _ ht => ht.elim) ?_
  intro plan lengths t ht
  obtain ⟨⟨lengths, heq, hlengths⟩, hready, hpadded, ht⟩ := ht
  obtain ⟨rfl, rfl⟩ := Prod.mk.inj heq
  have hwritten := (writeFrom_make_ensures path never hready hpadded hlengths hfits).recorded
  rw [WritePlan.make_of_chunkLengths hchunk hlengths] at hwritten ⊢
  dsimp only at hwritten ⊢
  have hmod : offset % v.chunkSize < v.chunkSize := Nat.mod_lt offset hchunk
  generalize hretained : min (offset % v.chunkSize)
    (content.length - offset / v.chunkSize * v.chunkSize) = retained at hwritten ⊢
  have hlength : ((content.extend (offset / v.chunkSize * v.chunkSize)).drop
      (offset / v.chunkSize * v.chunkSize)).length
        = content.length - offset / v.chunkSize * v.chunkSize := by
    rw [List.length_drop, Bytes.length_extend]
    omega
  have hreach : 0 < retained → offset / v.chunkSize * v.chunkSize
      < (content.extend (offset / v.chunkSize * v.chunkSize)).length := by
    rw [List.length_drop] at hlength
    omega
  have hputs : Interaction.Ensures (answer.recorded.mayFail never)
      (v.writeFrom path (v.storeName path) lengths.toArray (offset / v.chunkSize + 1) retained
        (offset % v.chunkSize - retained) 0 source) t _ :=
    writeFrom_putsFrom (fun hpos => hpadded.object (hreach hpos))
      (by rw [List.length_take, hlength]; omega) (by omega)
  intro r u hu
  obtain ⟨-, hr⟩ := hwritten r u hu
  replace hputs := hputs r u hu
  cases r with
  | error failure =>
    rcases hr.1 with ⟨_, hcall⟩ | hbroken
    · exact hcall.elim
    · exact absurd hwhole hbroken
  | ok count =>
    obtain ⟨-, rfl, hfile⟩ := hr
    have hle : min content.length offset / v.chunkSize ≤ offset / v.chunkSize :=
      Nat.div_le_div_right (Nat.min_le_right _ _)
    rw [Bytes.splice_extend hstart] at hfile
    refine ⟨by rw [Nat.zero_add], hfile, ?_⟩
    rw [← pads_add_putCount hchunk hretained.symm]
    refine ht.trans ?_
    rw [Nat.add_right_comm, Nat.add_sub_of_le hle]
    exact hputs _ rfl

/-- A write into a file in segments puts the segments whose chunks meet the part of the file from its
old end, or from the offset if that comes before, to the end of the data. Each is put once, in the order
of their numbers, with the bytes that the file has in its chunk after the write. -/
theorem write_puts (offset : Nat) (source : Source) (hm : v.Ready m)
    (hpath : Path.isBelowRoot path = true) (hmanifest : v.HasManifest m (v.storeName path))
    (hregular : v.Regular m (v.storeName path) k) (hforeign : v.NoForeign m (v.storeName path))
    (hwhole : source.failure = none)
    (hfits : offset + source.bytes.length ≤ v.chunkSize * Segment.maxSequence) :
    ∃ t, ∃ sequences : List Nat,
      (v.write path offset source).runOn answer.recorded ⟨[], m⟩ = (.ok source.bytes.length, t) ∧
      t.puts = sequences.map (fun i => (⟨v.segmentsContainer, Segment.name (v.storeName path) i⟩,
        (((v.contentAt m path).splice offset source.bytes).drop ((i - 1) * v.chunkSize)).take
          v.chunkSize)) ∧
      sequences.Pairwise (· < ·) ∧
      (∀ i, i ∈ sequences ↔ 0 < i ∧ ∃ p, (i - 1) * v.chunkSize ≤ p ∧ p < i * v.chunkSize ∧
        min (v.contentAt m path).length offset ≤ p ∧ p < offset + source.bytes.length) ∧
      (offset + source.bytes.length ≤ min (v.contentAt m path).length offset → t.puts = []) := by
  obtain ⟨content, hstores⟩ := hregular.exists_stores hforeign.numbered
  have hcontent : v.contentAt m path = content :=
    contentAt_of_holds (.segmented ⟨hmanifest, hstores⟩) hforeign
  rw [hcontent]
  cases hrun : (v.write path offset source).runOn answer.recorded ⟨[], m⟩ with
  | mk r t =>
    obtain ⟨rfl, hfile, hputs⟩ := write_putsFrom (s := ⟨[], m⟩) hm hpath hmanifest hstores hwhole hfits
      r t (outcome_never_iff.2 hrun)
    have hmem : ∀ i, i ∈ touched v.chunkSize (min content.length offset) (offset + source.bytes.length) ↔
        0 < i ∧ ∃ p, (i - 1) * v.chunkSize ≤ p ∧ p < i * v.chunkSize ∧
          min content.length offset ≤ p ∧ p < offset + source.bytes.length :=
      fun i => mem_touched v.chunkSize_pos
    have hgrown : (content.splice offset source.bytes).length
        = max content.length (offset + source.bytes.length) := Bytes.length_splice
    refine ⟨t, _, rfl, ?_, pairwise_touched, hmem, ?_⟩
    · refine hputs.puts.trans (List.map_congr_left fun i hi => ?_)
      obtain ⟨hpos, p, hlow, -, -, hp⟩ := (hmem i).1 hi
      exact hfile.segmentPut hpos (by omega)
    · intro hnothing
      rw [hputs.puts, touchedCount, if_neg (Nat.not_lt.2 hnothing)]
      rfl

/-- One byte far behind five, in segments of four: the second segment is filled up, one of zeros is put,
and the byte goes into the fourth. -/
theorem write_puts_behind_five_bytes : ∃ m t,
    (sampleVolume.write "/f" 0 (.ofPieces [⟨#[1, 2, 3, 4, 5]⟩] none)).runOn answer
        (fresh "files" true Timestamp.epoch) = (.ok 5, m) ∧
      (sampleVolume.write "/f" 13 (.ofPieces [⟨#[9]⟩] none)).runOn answer.recorded ⟨[], m⟩ = (.ok 1, t) ∧
      t.puts = [(⟨"files_segments", Segment.name "f" 2⟩, [5, 0, 0, 0]),
        (⟨"files_segments", Segment.name "f" 3⟩, [0, 0, 0, 0]),
        (⟨"files_segments", Segment.name "f" 4⟩, [0, 9])] := by
  obtain ⟨m, hrun, hfile, hm, hforeign⟩ := exists_stored ⟨#[1, 2, 3, 4, 5]⟩ (by decide)
  have hbytes : (Source.ofPieces [⟨#[9]⟩] none).bytes = [9] := by decide
  have hcontent : sampleVolume.contentAt m "/f" = [1, 2, 3, 4, 5] :=
    contentAt_of_holds (.segmented hfile) hforeign
  obtain ⟨t, sequences, hwrite, hputs, hsorted, hmem, -⟩ := write_puts 13 (.ofPieces [⟨#[9]⟩] none) hm
    (by decide) hfile.object hfile.stores.regular hforeign rfl (by rw [hbytes]; decide)
  rw [hbytes] at hwrite hputs
  rw [hcontent] at hputs
  have hsequences : sequences = [2, 3, 4] := by
    refine List.Pairwise.eq_of_mem_iff hsorted (by decide) fun i => ?_
    rw [hmem, hbytes, hcontent]
    simp only [sampleVolume, List.length_cons, List.length_nil, List.mem_cons, List.not_mem_nil, or_false]
    constructor
    · intro h
      obtain ⟨-, p, hp⟩ := h
      omega
    · intro h
      exact ⟨by omega, max 5 ((i - 1) * 4), by omega⟩
  rw [hsequences] at hputs
  exact ⟨m, t, hrun, hwrite, hputs⟩

end Volume

end SegmentedFiles
