import SegmentedFiles.Proofs.Bytes.Chunk
import SegmentedFiles.Proofs.Segment.Plan
import SegmentedFiles.Proofs.Volume.Keeps

/-! # Files in segments

A file in segments is laid out well if its segments are numbered from 1 on without a gap and all but
the last are as long as a chunk (`Volume.Regular`). Then the segments are the chunks of one sequence of
bytes (`Volume.Stores`), which is what the manifest reads as (`Stores.bytes_resolve`), and what a
listing of the segments shows are the lengths of these chunks (`Stores.entries_lengths`). Both are
known as well of segments that have any lengths (`Volume.Pieces`). -/

namespace SegmentedFiles.Volume

open Bytes (chunk? chunkLength? chunkCount)

variable {v : Volume} {m t : MemoryStore} {name : String} {content data : Bytes} {o : StoredObject}
  {pieces before after : List Bytes} {i j k s : Nat}

/-- The bytes of a segment, if it is there. -/
def segment? (v : Volume) (m : MemoryStore) (name : String) (s : Nat) : Option Bytes :=
  (m.object? v.segmentsContainer (Segment.name name s)).map fun o => o.content.bytes

/-- There is a segment with these bytes, which is a plain object. -/
def HasSegment (v : Volume) (m : MemoryStore) (name : String) (s : Nat) (data : Bytes) : Prop :=
  ∃ o, m.object? v.segmentsContainer (Segment.name name s) = some o ∧ o.manifest = none ∧
    o.content.bytes = data

/-- The segments of the object called `name` are these pieces, of any lengths, and are plain objects. -/
structure Pieces (v : Volume) (m : MemoryStore) (name : String) (pieces : List Bytes) : Prop where
  fits : pieces.length ≤ Segment.maxSequence
  zero : v.segment? m name 0 = none
  piece : ∀ i, v.segment? m name (i + 1) = pieces[i]?
  plain : ∀ s o, m.object? v.segmentsContainer (Segment.name name s) = some o → o.manifest = none

/-- The segments of the object called `name` are the chunks of `content`, and are plain objects. -/
structure Stores (v : Volume) (m : MemoryStore) (name : String) (content : Bytes) : Prop where
  fits : content.length ≤ v.chunkSize * Segment.maxSequence
  zero : v.segment? m name 0 = none
  chunk : ∀ i, v.segment? m name (i + 1) = chunk? v.chunkSize content i
  plain : ∀ s o, m.object? v.segmentsContainer (Segment.name name s) = some o → o.manifest = none

/-- The segments of the object called `name` have the numbers from 1 to `k`. All are as long as a chunk
but the last, which is not empty and not longer. They are plain objects. -/
structure Regular (v : Volume) (m : MemoryStore) (name : String) (k : Nat) : Prop where
  le : k ≤ Segment.maxSequence
  numbers : ∀ s, s ≤ Segment.maxSequence →
    ((m.object? v.segmentsContainer (Segment.name name s)).isSome = true ↔ 1 ≤ s ∧ s ≤ k)
  full : ∀ s o, m.object? v.segmentsContainer (Segment.name name s) = some o → s < k →
    o.content.size = v.chunkSize
  last : ∀ o, m.object? v.segmentsContainer (Segment.name name k) = some o →
    1 ≤ o.content.size ∧ o.content.size ≤ v.chunkSize
  plain : ∀ s o, s ≤ Segment.maxSequence →
    m.object? v.segmentsContainer (Segment.name name s) = some o → o.manifest = none

/-- Whatever lies in the container of segments below `name` is named like one of its segments. -/
def NoForeign (v : Volume) (m : MemoryStore) (name : String) : Prop :=
  ∀ text o, m.object? v.segmentsContainer text = some o →
    Text.startsWith text (Segment.start name) = true →
    (Segment.sequence? (Segment.start name) text).isSome = true

/-- The segments that there are have numbers for which there is room in their names. -/
def Numbered (v : Volume) (m : MemoryStore) (name : String) : Prop :=
  ∀ s o, m.object? v.segmentsContainer (Segment.name name s) = some o → s ≤ Segment.maxSequence

theorem NoForeign.numbered (h : v.NoForeign m name) : v.Numbered m name := by
  intro s o ho
  obtain ⟨t, ht⟩ := Option.isSome_iff_exists.1 (h _ o ho Segment.startsWith_name)
  obtain ⟨hname, hle⟩ := Segment.sequence?_eq_some_iff.1 ht
  rw [(Segment.name_inj hname).2]
  exact hle

theorem segment?_eq_some_iff : v.segment? m name s = some content ↔
    ∃ o, m.object? v.segmentsContainer (Segment.name name s) = some o ∧
      o.content.bytes = content := by
  rw [segment?, Option.map_eq_some_iff]

theorem segment?_eq_none_iff : v.segment? m name s = none ↔
    m.object? v.segmentsContainer (Segment.name name s) = none := by
  rw [segment?, Option.map_eq_none_iff]

/-- A segment that is put at its place leaves the others. -/
theorem object?_place_segment : (m.place v.segmentsContainer (Segment.name name i) o).object?
      v.segmentsContainer (Segment.name name s)
    = if s = i then some o else m.object? v.segmentsContainer (Segment.name name s) := by
  rw [MemoryStore.object?_place]
  by_cases hs : s = i
  · rw [if_pos ⟨rfl, hs ▸ rfl⟩, if_pos hs]
  · rw [if_neg fun hname => hs (Segment.name_inj hname.2).2, if_neg hs]

namespace Pieces

/-- There is a segment for each piece. -/
theorem object (h : v.Pieces m name pieces) (hi : pieces[i]? = some data) :
    v.HasSegment m name (i + 1) data := by
  have hpiece := h.piece i
  rw [hi, segment?_eq_some_iff] at hpiece
  obtain ⟨o, ho, hbytes⟩ := hpiece
  exact ⟨o, ho, h.plain _ o ho, hbytes⟩

theorem object_at (h : v.Pieces m name (before ++ data :: after)) (hi : before.length = i) :
    v.HasSegment m name (i + 1) data := by
  refine h.object ?_
  rw [List.getElem?_append_right (Nat.le_of_eq hi), hi, Nat.sub_self, List.getElem?_cons_zero]

/-- A piece with bytes in it is there. -/
theorem object_head (h : v.Pieces m name (before ++ after)) (hi : before.length = i)
    (hpos : 0 < (after.headD []).length) : v.HasSegment m name (i + 1) (after.headD []) := by
  cases after with
  | nil => exact absurd hpos (Nat.lt_irrefl 0)
  | cons piece rest => exact h.object_at hi

/-- A segment is a piece. -/
theorem piece_of_object (h : v.Pieces m name pieces)
    (ho : m.object? v.segmentsContainer (Segment.name name s) = some o) :
    ∃ i, s = i + 1 ∧ pieces[i]? = some o.content.bytes := by
  cases s with
  | zero =>
    rw [segment?_eq_none_iff.1 h.zero] at ho
    cases ho
  | succ i =>
    refine ⟨i, rfl, ?_⟩
    rw [← h.piece, segment?_eq_some_iff]
    exact ⟨o, ho, rfl⟩

theorem numbered (h : v.Pieces m name pieces) : v.Numbered m name := by
  intro s o ho
  obtain ⟨i, rfl, hi⟩ := h.piece_of_object ho
  exact Nat.le_trans (List.getElem?_eq_some_iff.1 hi).1 h.fits

/-- A segment that is put at its place is a piece in the place of another, or one more. -/
theorem place {piece : Payload} (h : v.Pieces m name (before ++ after)) (hi : before.length = i)
    (hfits : i < Segment.maxSequence) :
    v.Pieces (m.place v.segmentsContainer (Segment.name name (i + 1))
        (m.written piece (PutOptions.plain fileType))) name
      (before ++ piece.bytes :: after.tail) := by
  have hall := h.fits
  rw [List.length_append] at hall
  refine ⟨?_, ?_, ?_, ?_⟩
  · rw [List.length_append, List.length_cons, List.length_tail]
    omega
  · rw [segment?, object?_place_segment, if_neg (Nat.succ_ne_zero i).symm]
    exact h.zero
  · intro j
    rw [segment?, object?_place_segment]
    by_cases hj : j = i
    · rw [if_pos (congrArg Nat.succ hj), hj, List.getElem?_append_right (Nat.le_of_eq hi), hi,
        Nat.sub_self, List.getElem?_cons_zero]
      rfl
    · rw [if_neg fun hsucc => hj (Nat.succ.inj hsucc)]
      refine (h.piece j).trans ?_
      by_cases hlt : j < before.length
      · rw [List.getElem?_append_left hlt, List.getElem?_append_left hlt]
      · rw [List.getElem?_append_right (Nat.not_lt.1 hlt), List.getElem?_append_right (Nat.not_lt.1 hlt)]
        obtain ⟨k, hk⟩ := Nat.exists_eq_add_of_lt (show before.length < j by omega)
        rw [hk, Nat.add_assoc, Nat.add_sub_cancel_left, List.getElem?_cons_succ, List.getElem?_tail]
  · intro s o' ho'
    rw [object?_place_segment] at ho'
    split at ho'
    · cases ho'
      rfl
    · exact h.plain s o' ho'

/-! ## What a manifest reads as -/

theorem map_fst_under (h : v.Pieces m name pieces) (hforeign : v.NoForeign m name) :
    (m.under v.segmentsContainer (Segment.start name)).map Prod.fst
      = (List.range pieces.length).map fun i => Segment.name name (i + 1) := by
  refine MemoryStore.names_eq_of_mem_iff ?_ ?_ ?_
  · exact List.pairwise_map.2 (m.pairwise_under _ _)
  · rw [List.pairwise_map]
    refine List.pairwise_lt_range.imp_of_mem ?_
    intro i j hi hj hlt
    rw [List.mem_range] at hi hj
    exact Segment.compare_name (Nat.le_trans hi h.fits) (Nat.le_trans hj h.fits)
      (Nat.succ_lt_succ hlt)
  · intro text
    rw [List.mem_map, List.mem_map]
    constructor
    · intro hmem
      obtain ⟨⟨text, o⟩, hmem, rfl⟩ := hmem
      obtain ⟨ho, hstart⟩ := MemoryStore.mem_under.1 hmem
      obtain ⟨s, hs⟩ := Option.isSome_iff_exists.1 (hforeign text o ho hstart)
      obtain ⟨rfl, -⟩ := Segment.sequence?_eq_some_iff.1 hs
      obtain ⟨i, rfl, hi⟩ := h.piece_of_object ho
      exact ⟨i, List.mem_range.2 (List.getElem?_eq_some_iff.1 hi).1, rfl⟩
    · intro hmem
      obtain ⟨i, hi, rfl⟩ := hmem
      obtain ⟨o, ho, -, -⟩ := h.object (List.getElem?_eq_getElem (List.mem_range.1 hi))
      exact ⟨(_, o), MemoryStore.mem_under.2 ⟨ho, Segment.startsWith_name⟩, rfl⟩

/-- The manifest of a file reads as its pieces put together. -/
theorem bytes_resolve (h : v.Pieces m name pieces) (hforeign : v.NoForeign m name)
    (hmanifest : o.manifest = some (v.manifestRef name)) :
    (m.resolve o).bytes = pieces.flatten := by
  rw [Payload.bytes, MemoryStore.toList_resolve_of_manifest hmanifest, List.flatMap_def]
  show ((m.under v.segmentsContainer (Segment.start name)).map fun object =>
    object.2.content.bytes).flatten = pieces.flatten
  congr 1
  apply List.ext_getElem?
  intro i
  have hnames := congrArg (fun names => names[i]?) (h.map_fst_under hforeign)
  simp only [List.getElem?_map] at hnames
  rw [List.getElem?_map]
  by_cases hi : i < pieces.length
  · rw [List.getElem?_range hi, Option.map_some, Option.map_eq_some_iff] at hnames
    obtain ⟨⟨text, o'⟩, hentry, rfl⟩ := hnames
    obtain ⟨ho', -⟩ := MemoryStore.mem_under.1 (List.mem_of_getElem? hentry)
    rw [hentry, Option.map_some, ← h.piece, eq_comm, segment?_eq_some_iff]
    exact ⟨o', ho', rfl⟩
  · have hend := Nat.not_lt.1 hi
    have hnone : (List.range pieces.length)[i]? = none :=
      List.getElem?_eq_none (by rwa [List.length_range])
    rw [hnone, Option.map_none, Option.map_eq_none_iff] at hnames
    rw [hnames, Option.map_none, List.getElem?_eq_none hend]

end Pieces

namespace Stores

/-- The segments are the pieces into which the content is cut. -/
theorem toPieces (h : v.Stores m name content) :
    v.Pieces m name (Bytes.chunks v.chunkSize content) := by
  refine ⟨?_, h.zero, fun i => ?_, h.plain⟩
  · rw [Bytes.length_chunks, Bytes.chunkCount_le_iff v.chunkSize_pos, Nat.mul_comm]
    exact h.fits
  · rw [Bytes.getElem?_chunks v.chunkSize_pos]
    exact h.chunk i

theorem lt_maxSequence (h : v.Stores m name content) (hi : i * v.chunkSize < content.length) :
    i < Segment.maxSequence := by
  have hlt : i * v.chunkSize < Segment.maxSequence * v.chunkSize := by
    rw [Nat.mul_comm Segment.maxSequence]
    exact Nat.lt_of_lt_of_le hi h.fits
  exact Nat.lt_of_mul_lt_mul_right hlt

/-- There is a segment for each chunk. -/
theorem object (h : v.Stores m name content) (hi : i * v.chunkSize < content.length) :
    v.HasSegment m name (i + 1) ((content.drop (i * v.chunkSize)).take v.chunkSize) := by
  have hchunk := h.chunk i
  rw [Bytes.chunk?_of_lt hi, segment?_eq_some_iff] at hchunk
  obtain ⟨o, ho, hbytes⟩ := hchunk
  exact ⟨o, ho, h.plain _ o ho, hbytes⟩

/-- A segment is a chunk. -/
theorem chunk_of_object (h : v.Stores m name content)
    (ho : m.object? v.segmentsContainer (Segment.name name s) = some o) :
    ∃ i, s = i + 1 ∧ i * v.chunkSize < content.length ∧
      chunk? v.chunkSize content i = some o.content.bytes := by
  cases s with
  | zero =>
    rw [segment?_eq_none_iff.1 h.zero] at ho
    cases ho
  | succ i =>
    have hchunk : chunk? v.chunkSize content i = some o.content.bytes := by
      rw [← h.chunk, segment?_eq_some_iff]
      exact ⟨o, ho, rfl⟩
    refine ⟨i, rfl, ?_, hchunk⟩
    unfold chunk? at hchunk
    split at hchunk
    · assumption
    · cases hchunk

theorem numbered (h : v.Stores m name content) : v.Numbered m name :=
  h.toPieces.numbered

/-- Nothing but the file's own segments matters. -/
theorem congr (h : v.Stores m name content)
    (hsame : ∀ s, t.object? v.segmentsContainer (Segment.name name s)
      = m.object? v.segmentsContainer (Segment.name name s)) : v.Stores t name content := by
  refine ⟨h.fits, ?_, ?_, ?_⟩
  · rw [segment?, hsame]
    exact h.zero
  · intro i
    rw [segment?, hsame]
    exact h.chunk i
  · intro s o ho
    rw [hsame] at ho
    exact h.plain s o ho

/-- A segment that is written where its chunk starts, and does not end inside the bytes unless it
fills the chunk, is a write into the content. -/
theorem place {piece : Payload} (h : v.Stores m name content) (hpos : 0 < piece.size)
    (hle : piece.size ≤ v.chunkSize) (hstart : i * v.chunkSize ≤ content.length)
    (hend : piece.size = v.chunkSize ∨ content.length ≤ i * v.chunkSize + piece.size)
    (hfits : i * v.chunkSize + piece.size ≤ v.chunkSize * Segment.maxSequence) :
    v.Stores (m.place v.segmentsContainer (Segment.name name (i + 1))
        (m.written piece (PutOptions.plain fileType))) name
      (content.splice (i * v.chunkSize) piece.bytes) := by
  rw [← Payload.length_bytes] at hpos hle hend hfits
  refine ⟨?_, ?_, ?_, ?_⟩
  · rw [Bytes.length_splice]
    exact Nat.max_le.2 ⟨h.fits, hfits⟩
  · rw [segment?, object?_place_segment, if_neg (Nat.succ_ne_zero i).symm]
    exact h.zero
  · intro j
    rw [segment?, object?_place_segment, Bytes.chunk?_splice hpos hle hstart hend, ← h.chunk j]
    by_cases hj : j = i
    · rw [if_pos hj, if_pos (congrArg Nat.succ hj)]
      rfl
    · rw [if_neg hj, if_neg fun hsucc => hj (Nat.succ.inj hsucc)]
      rfl
  · intro s o' ho'
    rw [object?_place_segment] at ho'
    split at ho'
    · cases ho'
      rfl
    · exact h.plain s o' ho'

theorem of_pieces (h : v.Pieces m name (Bytes.chunks v.chunkSize content)) :
    v.Stores m name content := by
  refine ⟨?_, h.zero, fun i => ?_, h.plain⟩
  · rw [Nat.mul_comm, ← Bytes.chunkCount_le_iff v.chunkSize_pos, ← Bytes.length_chunks]
    exact h.fits
  · rw [h.piece, Bytes.getElem?_chunks v.chunkSize_pos]

/-- The manifest of a file reads as the content that its segments are the chunks of. -/
theorem bytes_resolve (h : v.Stores m name content) (hforeign : v.NoForeign m name)
    (hmanifest : o.manifest = some (v.manifestRef name)) : (m.resolve o).bytes = content := by
  rw [h.toPieces.bytes_resolve hforeign hmanifest, Bytes.flatten_chunks v.chunkSize_pos]

end Stores

/-! ## What is listed as the segments of a file -/

/-- The segments of the object called `name`, as they are listed. -/
def entries (v : Volume) (m : MemoryStore) (name : String) : List SegmentEntry :=
  entriesOf name ((m.under v.segmentsContainer (Segment.start name)).map fun object =>
    object.2.entry object.1)

theorem mem_entries {entry : SegmentEntry} : entry ∈ v.entries m name ↔
    entry.sequence ≤ Segment.maxSequence ∧ entry.name = Segment.name name entry.sequence ∧
      ∃ o, m.object? v.segmentsContainer entry.name = some o ∧ entry.length = o.content.size := by
  rw [entries, entriesOf, List.mem_mergeSort, List.filterMap_map, List.mem_filterMap]
  constructor
  · intro h
    obtain ⟨⟨text, o⟩, hmem, hentry⟩ := h
    obtain ⟨s, hs, rfl⟩ := Option.map_eq_some_iff.1 hentry
    obtain ⟨hname, hle⟩ := Segment.sequence?_eq_some_iff.1 hs
    exact ⟨hle, hname, o, (MemoryStore.mem_under.1 hmem).1, rfl⟩
  · obtain ⟨s, text, length⟩ := entry
    intro h
    dsimp only at h
    obtain ⟨hle, rfl, o, ho, rfl⟩ := h
    refine ⟨(_, o), MemoryStore.mem_under.2 ⟨ho, Segment.startsWith_name⟩, ?_⟩
    exact Option.map_eq_some_iff.2 ⟨s, Segment.sequence?_eq_some_iff.2 ⟨rfl, hle⟩, rfl⟩

/-- The segments are listed by number, each once. -/
theorem pairwise_entries (v : Volume) (m : MemoryStore) (name : String) :
    (v.entries m name).Pairwise fun a b => a.sequence < b.sequence := by
  have hle : (v.entries m name).Pairwise fun a b => a.sequence ≤ b.sequence := by
    have hsorted := @List.pairwise_mergeSort SegmentEntry (fun a b => a.sequence ≤ b.sequence)
      (by simpa using fun a b c => Nat.le_trans) (by simpa using fun a b => Nat.le_total _ _)
    exact (hsorted _).imp fun h => by simpa using h
  have hne : (v.entries m name).Pairwise fun a b => a.sequence ≠ b.sequence := by
    refine (List.Perm.pairwise_iff (fun h => Ne.symm h) (List.mergeSort_perm _ _)).2 ?_
    rw [List.filterMap_map, List.pairwise_filterMap]
    refine (m.pairwise_under _ _).imp ?_
    rintro ⟨text, o⟩ ⟨text', o'⟩ hlt entry hentry entry' hentry' hsame
    obtain ⟨s, hs, rfl⟩ := Option.map_eq_some_iff.1 hentry
    obtain ⟨s', hs', rfl⟩ := Option.map_eq_some_iff.1 hentry'
    have hname : text = text' :=
      calc
        text = Segment.name name s := (Segment.sequence?_eq_some_iff.1 hs).1
        _ = Segment.name name s' := congrArg _ hsame
        _ = text' := (Segment.sequence?_eq_some_iff.1 hs').1.symm
    rw [hname, Std.compare_self] at hlt
    cases hlt
  exact (hle.and hne).imp fun h => Nat.lt_of_le_of_ne h.1 h.2

/-- The segments of a file are listed with the lengths of its pieces. -/
theorem Pieces.entries_lengths (h : v.Pieces m name pieces) :
    (v.entries m name).map SegmentEntry.length = pieces.map List.length := by
  have hsequences : (v.entries m name).map SegmentEntry.sequence
      = (List.range pieces.length).map Nat.succ := by
    refine List.Pairwise.eq_of_mem_iff (r := (· < ·)) ?_ ?_ ?_
    · exact List.pairwise_map.2 (v.pairwise_entries m name)
    · exact List.pairwise_map.2 (List.pairwise_lt_range.imp Nat.succ_lt_succ)
    · intro s
      simp only [List.mem_map, List.mem_range]
      constructor
      · intro hs
        obtain ⟨entry, hentry, rfl⟩ := hs
        obtain ⟨-, hname, o, ho, -⟩ := mem_entries.1 hentry
        rw [hname] at ho
        obtain ⟨i, hs, hi⟩ := h.piece_of_object ho
        exact ⟨i, (List.getElem?_eq_some_iff.1 hi).1, hs.symm⟩
      · intro hs
        obtain ⟨i, hi, rfl⟩ := hs
        obtain ⟨o, ho, -, -⟩ := h.object (List.getElem?_eq_getElem hi)
        have hentry : ⟨i + 1, _, o.content.size⟩ ∈ v.entries m name :=
          mem_entries.2 ⟨Nat.le_trans hi h.fits, rfl, o, ho, rfl⟩
        exact ⟨_, hentry, rfl⟩
  apply List.ext_getElem?
  intro j
  have hj := congrArg (fun sequences => sequences[j]?) hsequences
  simp only [List.getElem?_map] at hj
  rw [List.getElem?_map, List.getElem?_map]
  by_cases hlt : j < pieces.length
  · rw [List.getElem?_range hlt, Option.map_some, Option.map_eq_some_iff] at hj
    obtain ⟨entry, hentry, hsequence⟩ := hj
    obtain ⟨-, hname, o, ho, hlength⟩ := mem_entries.1 (List.mem_of_getElem? hentry)
    rw [hname, hsequence] at ho
    obtain ⟨i, hi, hpiece⟩ := h.piece_of_object ho
    rw [hentry, Option.map_some, hlength, Nat.succ.inj hi, hpiece, Option.map_some,
      Payload.length_bytes]
  · have hend := Nat.not_lt.1 hlt
    have hnone : (List.range pieces.length)[j]? = none :=
      List.getElem?_eq_none (by rwa [List.length_range])
    rw [hnone, Option.map_none, Option.map_eq_none_iff] at hj
    rw [hj, Option.map_none, List.getElem?_eq_none hend, Option.map_none]

/-- The segments of a file that is laid out well have the lengths of its chunks. -/
theorem Stores.entries_lengths (h : v.Stores m name content) (j : Nat) :
    ((v.entries m name).map SegmentEntry.length)[j]?
      = chunkLength? v.chunkSize content.length j := by
  rw [h.toPieces.entries_lengths, List.getElem?_map, Bytes.getElem?_chunks v.chunkSize_pos,
    Bytes.map_length_chunk?]

/-! ## Layouts and contents -/

theorem Stores.regular (h : v.Stores m name content) :
    v.Regular m name (chunkCount v.chunkSize content.length) := by
  have hcount : ∀ i, i < chunkCount v.chunkSize content.length ↔ i * v.chunkSize < content.length :=
    fun i => Bytes.lt_chunkCount_iff v.chunkSize_pos
  have hsize : ∀ s o, m.object? v.segmentsContainer (Segment.name name s) = some o →
      ∃ i, s = i + 1 ∧ i * v.chunkSize < content.length ∧
        o.content.size = min v.chunkSize (content.length - i * v.chunkSize) := by
    intro s o ho
    obtain ⟨i, rfl, hi, hchunk⟩ := h.chunk_of_object ho
    refine ⟨i, rfl, hi, ?_⟩
    have hlength := congrArg (Option.map List.length) hchunk
    rw [Bytes.map_length_chunk?, Bytes.chunkLength?_of_lt hi, Option.map_some, Payload.length_bytes] at hlength
    exact (Option.some.inj hlength).symm
  refine ⟨?_, ?_, ?_, ?_, ?_⟩
  · rw [Bytes.chunkCount_le_iff v.chunkSize_pos, Nat.mul_comm]
    exact h.fits
  · intro s _
    rw [Option.isSome_iff_exists]
    constructor
    · intro h
      obtain ⟨o, ho⟩ := h
      obtain ⟨i, rfl, hi, -⟩ := hsize s o ho
      exact ⟨Nat.succ_pos i, (hcount i).2 hi⟩
    · intro h
      obtain ⟨hpos, hle⟩ := h
      obtain ⟨i, rfl⟩ := Nat.exists_eq_add_of_le' hpos
      obtain ⟨o, ho, -⟩ := h.object ((hcount i).1 hle)
      exact ⟨o, ho⟩
  · intro s o ho hlt
    obtain ⟨i, rfl, hi, hmin⟩ := hsize s o ho
    have hnext := (hcount (i + 1)).1 hlt
    rw [Nat.succ_mul] at hnext
    omega
  · intro o ho
    obtain ⟨i, -, hi, hmin⟩ := hsize _ o ho
    have := v.chunkSize_pos
    omega
  · exact fun s o _ => h.plain s o

/-- What is laid out well has a content. -/
theorem Regular.exists_stores (h : v.Regular m name k) (hnumbered : v.Numbered m name) :
    ∃ content, v.Stores m name content := by
  let pieces := (List.range k).map fun i => (v.segment? m name (i + 1)).getD []
  have hpiece : ∀ i, pieces[i]? = v.segment? m name (i + 1) := by
    intro i
    rw [List.getElem?_map]
    by_cases hi : i < k
    · rw [List.getElem?_range hi, Option.map_some]
      obtain ⟨o, ho⟩ := Option.isSome_iff_exists.1
        ((h.numbers (i + 1) (Nat.le_trans hi h.le)).2 ⟨Nat.succ_pos i, hi⟩)
      rw [segment?, ho]
      rfl
    · rw [List.getElem?_eq_none (by rw [List.length_range]; exact Nat.not_lt.1 hi), Option.map_none,
        eq_comm, segment?_eq_none_iff]
      cases ho : m.object? v.segmentsContainer (Segment.name name (i + 1)) with
      | none => rfl
      | some o =>
        have hle := (h.numbers (i + 1) (hnumbered _ o ho)).1 (by rw [ho]; rfl)
        exact absurd hle.2 hi
  have hchunk : ∀ i, v.segment? m name (i + 1) = chunk? v.chunkSize pieces.flatten i := by
    intro i
    rw [← hpiece, Bytes.chunk?_flatten]
    intro j piece hj
    have hlt : j < k := by
      have := (List.getElem?_eq_some_iff.1 hj).1
      simpa [pieces] using this
    rw [hpiece, segment?_eq_some_iff] at hj
    obtain ⟨o, ho, rfl⟩ := hj
    rw [Payload.length_bytes]
    rcases Nat.lt_or_eq_of_le hlt with hnext | hnext
    · have hfull := h.full (j + 1) o ho hnext
      exact ⟨hfull ▸ v.chunkSize_pos, Nat.le_of_eq hfull, fun _ => hfull⟩
    · have hlast := h.last o (hnext ▸ ho)
      refine ⟨hlast.1, hlast.2, fun hlength => ?_⟩
      simp only [pieces, List.length_map, List.length_range] at hlength
      exact absurd hlength (by omega)
  refine ⟨pieces.flatten, ?_, ?_, hchunk, fun s o ho => h.plain s o (hnumbered s o ho) ho⟩
  · have hend : chunk? v.chunkSize pieces.flatten Segment.maxSequence = none := by
      rw [← hchunk, segment?_eq_none_iff]
      cases ho : m.object? v.segmentsContainer (Segment.name name (Segment.maxSequence + 1)) with
      | none => rfl
      | some o => exact absurd (hnumbered _ o ho) (Nat.not_succ_le_self _)
    unfold chunk? at hend
    split at hend
    · cases hend
    · rw [Nat.mul_comm]
      exact Nat.not_lt.1 ‹_›
  · rw [segment?_eq_none_iff]
    cases ho : m.object? v.segmentsContainer (Segment.name name 0) with
    | none => rfl
    | some o =>
      have hpos := (h.numbers 0 (Nat.zero_le _)).1 (by rw [ho]; rfl)
      exact absurd hpos.1 (Nat.not_succ_le_zero 0)

end SegmentedFiles.Volume
