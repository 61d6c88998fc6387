import SegmentedFiles.Proofs.Object.Range
import SegmentedFiles.Proofs.Segment.Spans
import SegmentedFiles.Proofs.Store.Places
import SegmentedFiles.Proofs.Volume.Asked
import SegmentedFiles.Proofs.Volume.Resume

/-! # The ranges that a write asks for

A write asks for parts of two segments: of the one that it begins in, for what comes before the offset, and
of the one that it ends in, for what comes behind the data. It knows the lengths of the segments from
before its first put, and puts segment after segment; so the lengths stay right for the segments that are
still ahead (`HasLengths.next`), and a range within such a length lies in the segment. That the range is
not empty is seen from the text of the write, and with it the header means the bytes that are meant
(`ranges_agree`). -/

namespace SegmentedFiles.Volume

open Interaction (Asked Outcome)
open MemoryStore (answer SameBut At)
open VolumeAction

variable {v : Volume} {m t : MemoryStore} {name path : String} {fails : StoreCall → Prop}
  {lengths : Array Nat} {retained zeroFill offset i j k : Nat}

/-- If the call asks for a range, then for bytes that a segment has, and for one or more. -/
def InSegment (v : Volume) (name : String) : StoreCall → MemoryStore → Prop
  | .get container object (some range), m => container = v.segmentsContainer ∧
      ∃ s data stop, object = Segment.name name s ∧ v.HasSegment m name s data ∧
        range = .bounded range.start stop ∧ range.start < stop ∧ stop ≤ data.length
  | _, _ => True

/-- The segments behind the first `i` have the lengths that are known of them. -/
def HasLengths (v : Volume) (m : MemoryStore) (name : String) (lengths : Array Nat) (i : Nat) : Prop :=
  ∀ j length, i ≤ j → lengths[j]? = some length →
    ∃ data, v.HasSegment m name (j + 1) data ∧ data.length = length

namespace HasLengths

/-- Whatever happens to the other segments. -/
theorem congr (h : v.HasLengths m name lengths i) (hle : i ≤ j)
    (hsame : ∀ s, j < s → t.object? v.segmentsContainer (Segment.name name s)
      = m.object? v.segmentsContainer (Segment.name name s)) : v.HasLengths t name lengths j := by
  intro l length hl hlength
  obtain ⟨data, ⟨o, ho, hplain, hbytes⟩, hdata⟩ := h l length (Nat.le_trans hle hl) hlength
  exact ⟨data, ⟨o, (hsame _ (Nat.lt_succ_of_le hl)).trans ho, hplain, hbytes⟩, hdata⟩

/-- What is put into a segment does not change how long the later ones are. -/
theorem next (h : v.HasLengths m name lengths i)
    (hsame : SameBut (At v.segmentsContainer (Segment.name name (i + 1))) m t) :
    v.HasLengths t name lengths (i + 1) := by
  refine h.congr (Nat.le_succ i) fun s hs => hsame _ _ fun hat => ?_
  exact Nat.ne_of_gt hs (Segment.name_inj hat.2).2

/-- A segment of which some bytes are known is there. -/
theorem segment (h : v.HasLengths m name lengths i) (hpos : 0 < lengths.getD i 0) :
    ∃ data, v.HasSegment m name (i + 1) data ∧ data.length = lengths.getD i 0 := by
  rw [Array.getD_eq_getD_getElem?] at hpos ⊢
  cases hlength : lengths[i]? with
  | none =>
    rw [hlength] at hpos
    exact absurd hpos (Nat.lt_irrefl 0)
  | some length => exact h i length (Nat.le_refl i) hlength

end HasLengths

/-! ## One segment -/

theorem segmentHead_asks (h : v.HasLengths m name lengths i) (hretained : retained ≤ lengths.getD i 0) :
    Asks (answer.mayFail fails) (v.segmentHead path (Segment.name name (i + 1)) retained zeroFill) m
      (v.InSegment name) := by
  unfold segmentHead
  dsimp only
  split
  · exact (asks_pure _).bind_any fun _ _ => asks_pure _
  · next hpos =>
    have hlt : 0 < retained := Nat.pos_of_ne_zero hpos
    obtain ⟨data, hsegment, hlength⟩ := h.segment (Nat.lt_of_lt_of_le hlt hretained)
    refine (asks_at path ?_).bind_any fun _ _ => asks_pure _
    exact ⟨rfl, i + 1, data, retained, rfl, hsegment, rfl, hlt, hlength ▸ hretained⟩

theorem segmentHead_same (s : Nat) : Preserves (answer.mayFail fails) (SameBut fun _ _ => False)
    (v.segmentHead path (Segment.name name s) retained zeroFill) := by
  unfold segmentHead
  dsimp only
  split
  · exact preserves_pure (.refl _) _
  · refine Preserves.bind (.refl _) (fun _ _ _ => .trans) ?_ fun _ => preserves_pure (.refl _) _
    exact MemoryStore.preserves_at_of_touches fun _ _ hin => hin

theorem commitSegment_asks {head data : Payload} {last commit : Bool} (h : v.HasLengths m name lengths i) :
    Asks (answer.mayFail fails) (v.commitSegment path (Segment.name name (i + 1)) (lengths.getD i 0) head
      data last commit) m (v.InSegment name) := by
  have hput : ∀ content t, Asks (answer.mayFail fails)
      (v.putSegment path (Segment.name name (i + 1)) content) t (v.InSegment name) :=
    fun _ _ => asks_at path trivial
  unfold commitSegment
  dsimp only
  split
  · split
    · next hshort =>
      simp only [Bool.and_eq_true, decide_eq_true_eq] at hshort
      obtain ⟨old, hsegment, hlength⟩ := h.segment (Nat.zero_lt_of_lt hshort.2)
      refine (asks_at path ?_).bind_any fun _ _ => hput _ _
      exact ⟨rfl, i + 1, old, _, rfl, hsegment, rfl, hshort.2, Nat.le_of_eq hlength.symm⟩
    · exact (asks_pure _).bind_any fun _ _ => hput _ _
  · exact asks_pure _

theorem commitSegment_same {head data : Payload} {last commit : Bool} {oldLength s : Nat} :
    Preserves (answer.mayFail fails) (SameBut (At v.segmentsContainer (Segment.name name s)))
      (v.commitSegment path (Segment.name name s) oldLength head data last commit) := by
  have hput : ∀ content, Preserves (answer.mayFail fails)
      (SameBut (At v.segmentsContainer (Segment.name name s)))
      (v.putSegment path (Segment.name name s) content) :=
    fun _ => MemoryStore.preserves_at_of_touches fun _ _ hin => hin
  unfold commitSegment
  dsimp only
  split
  · split
    · refine Preserves.bind (.refl _) (fun _ _ _ => .trans) ?_ fun _ => hput _
      exact MemoryStore.preserves_at_of_touches fun _ _ => False.elim
    · exact hput _
  · exact preserves_pure (.refl _) _

/-! ## All segments -/

/-- Segment after segment is written, and each range lies in the segment that it is asked of. -/
theorem writeFrom_asks {written : Nat} {source : Source} (h : v.HasLengths m name lengths i)
    (hretained : retained ≤ lengths.getD i 0) :
    Interaction.Asks (answer.mayFail fails)
      (v.writeFrom path name lengths (i + 1) retained zeroFill written source) m (v.InSegment name) := by
  -- The induction is on the data that remains: a segment that is not the last takes some of it.
  induction hremaining : source.remaining using Nat.strongRecOn
    generalizing i retained zeroFill written source m with
  | _ remaining ih =>
    rw [writeFrom]
    refine Interaction.Asks.bind (segmentHead_asks h hretained) (segmentHead_same (i + 1) m) ?_
    intro r t ht
    rcases r with e | head
    · exact Interaction.asks_done _
    replace ht : v.HasLengths t name lengths i := h.congr (Nat.le_refl i) fun _ _ => ht _ _ id
    dsimp only
    split
    · exact Interaction.asks_done _
    next data rest hread =>
    rw [Nat.add_sub_cancel]
    refine Interaction.Asks.bind (commitSegment_asks ht) (commitSegment_same t) ?_
    intro r u hu
    rcases r with e | _
    · exact Interaction.asks_done _
    dsimp only
    split
    · exact Interaction.asks_done _
    · next hmore =>
      have hless : rest.remaining < remaining := hremaining ▸ Source.remaining_lt_of_read hread hmore
      exact ih rest.remaining hless (ht.next hu) (Nat.zero_le _) rfl

/-- To fill up a file no range is asked for. -/
theorem pad_asks (plan : WritePlan) :
    Asks (answer.mayFail fails) (v.pad path name plan) m (v.InSegment name) := by
  have hput : ∀ s content t, Asks (answer.mayFail fails)
      (v.putSegment path (Segment.name name s) content) t (v.InSegment name) :=
    fun _ _ _ => asks_at path trivial
  have hread : ∀ tail, Asks (answer.mayFail fails) (v.readTail path name tail) m (v.InSegment name) := by
    intro tail
    unfold readTail
    split
    · exact asks_pure _
    · exact asks_at path trivial
  have hzeros : ∀ t, Asks (answer.mayFail fails) (v.putZeros path name plan.zeroSegments) t
      (v.InSegment name) := by
    intro t
    refine Asks.bind_any (asks_forIn fun s _ u => ?_) fun _ _ => asks_pure _
    exact (hput s _ u).bind_any fun _ _ => asks_pure _
  rw [pad_eq]
  split
  · next tail _ =>
    exact Asks.bind_any ((hread tail).bind_any fun _ _ => hput _ _ _) fun _ _ => hzeros _
  · exact hzeros m

/-- A file is filled up before the segment that a write begins in. -/
theorem pad_hasLengths {lengths : List Nat} (h : v.HasLengths m name lengths.toArray 0) :
    Ensures (answer.mayFail fails) (v.pad path name (WritePlan.make offset lengths v.chunkSize)) m
      (fun _ t => v.HasLengths t name lengths.toArray
        ((WritePlan.make offset lengths v.chunkSize).sequence - 1)) fun _ _ => True := by
  rcases WritePlan.locate_cases offset lengths v.chunkSize with ⟨i, length, hlocate, -, -, -⟩ |
    ⟨hlocate, -⟩
  · rw [WritePlan.make, hlocate, pad_eq, WritePlan.zeroSegments]
    dsimp only
    rw [Nat.sub_self]
    exact ensures_pure (h.congr (Nat.zero_le _) fun _ _ => rfl)
  · rw [WritePlan.make, hlocate]
    intro r t _
    cases r with
    | error e => trivial
    | ok _ =>
      intro j length hj hlength
      have hlt := (List.getElem?_eq_some_iff.1 (List.getElem?_toArray.symm.trans hlength)).1
      dsimp only at hj
      rw [Nat.add_right_comm, Nat.add_sub_cancel] at hj
      exact absurd hlt (Nat.not_lt.2 (Nat.le_trans (Nat.le_add_right _ _) hj))

/-- Of a file that has a manifest the segments are listed. -/
theorem prepare_asks (hmanifest : v.HasManifest m (v.storeName path)) :
    Asks (answer.mayFail fails) (v.prepare path) m (v.InSegment name) := by
  obtain ⟨o, ho, href⟩ := hmanifest
  unfold prepare
  dsimp only
  refine asks_try_bind trivial (MemoryStore.answer_head_of_some ho) ?_ ?_
  · dsimp only [StoredObject.info]
    rw [href, if_pos Option.isSome_some, segments_eq]
    simp only [bind_assoc, pure_bind]
    exact (asks_at path trivial).bind_any fun _ _ => asks_pure _
  · intro e he
    split
    · next heq => exact absurd (Except.error.inj heq) he
    · exact asks_throw _
    · next heq => cases heq

/-- The lengths of pieces are known. -/
theorem hasLengths_of_pieces {pieces : List Bytes} (h : v.Pieces m name pieces) :
    v.HasLengths m name (pieces.map List.length).toArray 0 := by
  intro j length _ hlength
  rw [List.getElem?_toArray, List.getElem?_map, Option.map_eq_some_iff] at hlength
  obtain ⟨data, hdata, hlength⟩ := hlength
  exact ⟨data, h.object hdata, hlength⟩

/-! ## The whole write -/

/-- What comes before the first segment with data asks for no range, and leaves the lengths of the
segments right that are still ahead. -/
theorem begin_asks (fails : StoreCall → Prop) (offset : Nat) {pieces : List Bytes} (hm : v.Ready m)
    (hpath : Path.isBelowRoot path = true) (hmanifest : v.HasManifest m (v.storeName path))
    (hpieces : v.Pieces m (v.storeName path) pieces) :
    Asks (answer.mayFail fails) (v.beginWrite path offset) m (v.InSegment (v.storeName path)) ∧
      Ensures (answer.mayFail fails) (v.beginWrite path offset) m
        (fun begun t => ∃ lengths, begun = (WritePlan.make offset lengths v.chunkSize, lengths.toArray) ∧
          v.HasLengths t (v.storeName path) lengths.toArray
            ((WritePlan.make offset lengths v.chunkSize).sequence - 1)) fun _ _ => True := by
  refine ⟨?_, ensures_beginWrite (fun _ => trivial)
    (fun _ => (prepare_of_manifest hm hmanifest).mono (fun _ _ ht => ht) fun _ _ _ => trivial) ?_⟩
  · rw [beginWrite, checkPath, if_pos (by rw [hpath]; rfl), pure_bind]
    exact (prepare_asks hmanifest).bind_any fun _ _ => (pad_asks _).bind_any fun _ _ => asks_pure _
  · intro _ lengths t ht
    rw [hpieces.entries_lengths] at ht
    obtain ⟨rfl, rfl⟩ := ht
    exact (pad_hasLengths (hasLengths_of_pieces hpieces)).mono (fun _ _ ht => ⟨_, rfl, ht⟩)
      fun _ _ _ => trivial

/-- Whatever the lengths of the segments are, a range that a write asks for lies in one of them. -/
theorem write_asks {pieces : List Bytes} (source : Source) (hm : v.Ready m)
    (hpath : Path.isBelowRoot path = true) (hmanifest : v.HasManifest m (v.storeName path))
    (hpieces : v.Pieces m (v.storeName path) pieces) :
    Interaction.Asks (answer.mayFail fails) (v.write path offset source) m
      (v.InSegment (v.storeName path)) := by
  obtain ⟨hasks, hends⟩ := begin_asks fails offset hm hpath hmanifest hpieces
  refine Interaction.Asks.bind hasks hends ?_
  intro r t ht
  rcases r with e | begun
  · exact Interaction.asks_done _
  obtain ⟨lengths, rfl, ht⟩ := ht
  have hplan := WritePlan.fits_make offset lengths v.chunkSize
  have hretained := hplan.retained_le
  obtain ⟨i, hi⟩ := Nat.exists_eq_add_one_of_ne_zero (Nat.ne_of_gt hplan.sequence_pos)
  rw [hi, Nat.add_sub_cancel] at ht hretained
  dsimp only
  rw [hi]
  refine writeFrom_asks ht ?_
  rwa [Array.getD_eq_getD_getElem?, List.getElem?_toArray, ← List.getD_eq_getElem?_getD]

/-- A store in memory answers with the bytes that are asked for. -/
theorem answer_of_inSegment {container object : String} {range : ByteRange}
    (h : v.InSegment name (.get container object (some range)) m) :
    ∃ piece, answer (.get container object (some range)) m = (.ok piece, m) ∧ 0 < piece.size := by
  obtain ⟨rfl, s, data, stop, rfl, ⟨o, ho, hplain, rfl⟩, hrange, hlt, hstop⟩ := h
  have hsize : stop ≤ (m.resolve o).size := by
    rwa [MemoryStore.resolve_of_plain hplain, ← Payload.length_bytes]
  refine ⟨_, by rw [hrange]; exact MemoryStore.answer_get_bounded ho hlt hsize, ?_⟩
  rw [← Payload.length_bytes, Payload.bytes_extract, List.length_take, List.length_drop,
    Payload.length_bytes]
  omega

/-- Each range that a write into a file in segments asks for is one of bytes that a segment has, so it is
answered with some. A range with positions in it and its header select the same bytes of an object that it
begins in, and a store refuses a range only if it begins at the end of the object or behind it. -/
theorem ranges_agree (fails : StoreCall → Prop) (offset : Nat) (source : Source) (hm : v.Ready m)
    (hpath : Path.isBelowRoot path = true) (hmanifest : v.HasManifest m (v.storeName path))
    (hregular : v.Regular m (v.storeName path) k) (hnumbered : v.Numbered m (v.storeName path)) :
    (∀ container object range t, Asked (answer.mayFail fails) (v.write path offset source) m
        (.get container object (some range)) t →
      container = v.segmentsContainer ∧
      (∃ s data stop, object = Segment.name (v.storeName path) s ∧
        v.HasSegment t (v.storeName path) s data ∧ range = .bounded range.start stop ∧
        range.start < stop ∧ stop ≤ data.length) ∧
      ∃ piece, answer (.get container object (some range)) t = (.ok piece, t) ∧ 0 < piece.size) ∧
    (∀ (r : ByteRange) (length : Nat), r.HasPositions → r.start < length →
      ∃ start stop, r.resolve? length = some (start, stop) ∧ start < stop ∧ stop ≤ length ∧
        ∀ i, Http.Selects r.header length i ↔ start ≤ i ∧ i < stop) ∧
    (∀ (r : ByteRange) (length : Nat), r.resolve? length = none ↔ length ≤ r.start) ∧
    (∀ content r, LocalStore.slice content r = .error .rangeNotSatisfiable ↔ content.size ≤ r.start) ∧
    ∀ (t : MemoryStore) c n o r, t.object? c n = some o →
      (t.read c n (some r) = .error .rangeNotSatisfiable ↔ (t.resolve o).size ≤ r.start) := by
  obtain ⟨content, hstores⟩ := hregular.exists_stores hnumbered
  refine ⟨?_, fun r length h hstart => ByteRange.resolve?_selects h hstart,
    fun r length => ByteRange.resolve?_eq_none_iff, fun content r => LocalStore.slice_refuses_iff,
    fun t c n o r ho => MemoryStore.read_refuses_iff ho⟩
  intro container object range t hasked
  have hin := write_asks source hm hpath hmanifest hstores.toPieces _ t hasked
  exact ⟨hin.1, hin.2, answer_of_inSegment hin⟩

/-- One byte over the second of five, in segments of four: the write asks for the first byte of the first
segment, and the store has it. -/
theorem ranges_agree_of_second_byte : ∃ m t,
    (sampleVolume.write "/f" 0 (.ofPieces [⟨#[1, 2, 3, 4, 5]⟩] none)).runOn answer
        (fresh "files" true Timestamp.epoch) = (.ok 5, m) ∧
      Asked (answer.mayFail never) (sampleVolume.write "/f" 1 (.ofPieces [⟨#[9]⟩] none)) m
        (.get "files_segments" (Segment.name "f" 1) (some (.bounded 0 1))) t ∧
      ∃ piece, answer (.get "files_segments" (Segment.name "f" 1) (some (.bounded 0 1))) t
        = (.ok piece, t) ∧ 0 < piece.size := by
  obtain ⟨m, hrun, hfile, hm, hforeign⟩ := exists_stored ⟨#[1, 2, 3, 4, 5]⟩ (by decide)
  have hpath : Path.isBelowRoot "/f" = true := by decide
  have hfits : 1 ≤ sampleVolume.chunkSize * Segment.maxSequence := by decide
  have hbegin : Ensures (answer.mayFail never) _ m _ _ :=
    prepare_pad_ensures hm hpath (.segmented hfile) hfits
  have hunder : sampleVolume.UnderDirectories m "/f" := .of_nil (by decide)
  obtain ⟨begun, t, hend, -, -, lengths, rfl, hlengths⟩ :=
    (hbegin.mono (fun _ _ h => h) fun _ _ h => h.2.2.elim (fun hcall => hcall.elim fun _ h => h)
      fun h => h hunder).exists_runOn
  have hasked : Asked (answer.mayFail never) (sampleVolume.write "/f" 1 (.ofPieces [⟨#[9]⟩] none)) m
      (.get "files_segments" (Segment.name "f" 1) (some (.bounded 0 1))) t := by
    refine Interaction.asked_bind_iff.2 (.inr ⟨_, t, outcome_never_iff.2 hend, ?_⟩)
    rw [WritePlan.make_of_chunkLengths (by decide) hlengths]
    dsimp only
    rw [writeFrom]
    exact Interaction.asked_bind_iff.2 (.inl (.now _ _ t))
  have hagree := ranges_agree never 1 (.ofPieces [⟨#[9]⟩] none) hm hpath hfile.object
    hfile.stores.regular hforeign.numbered
  exact ⟨m, t, hrun, hasked, (hagree.1 _ _ _ t hasked).2.2⟩

end SegmentedFiles.Volume
