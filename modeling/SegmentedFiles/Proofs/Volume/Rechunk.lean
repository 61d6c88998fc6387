import SegmentedFiles.Proofs.Volume.Overwrite
import SegmentedFiles.Proofs.Volume.Resume

/-! # Writes over segments of another size

The segments of a file have one size, and a write cuts its data by another. What is read after the write
is said for all sizes, offsets and data in `write_rechunked_iff`, and with it when the write has done
what it should: that is so if the old bytes go on where the data ends, and they go on where `resumes`
says. -/

namespace SegmentedFiles.Volume

open Bytes (chunkCount)
open MemoryStore (answer)

variable {v w : Volume} {m t : MemoryStore} {name path : String} {content old : Bytes}
  {pieces : List Bytes} {fails : StoreCall → Prop} {count offset : Nat} {source : Source}

/-! ## Where the old bytes go on -/

/-- In a file of `length` bytes, in segments of `size` bytes, the offset lies behind as many bytes of its
segment as fill one of `chunk` bytes. -/
def Blocked (size chunk offset length : Nat) : Prop := offset < length ∧ chunk ≤ offset % size

/-- Where the old bytes of a file in segments of `size` bytes go on behind `count` new ones that were
put over them at an offset in segments of `chunk` bytes. -/
def resumes (size chunk offset count : Nat) : Nat :=
  (offset / size + (offset % size + count) / chunk) * size + min ((offset % size + count) % chunk) size

section Resumes

variable {size chunk : Nat}

/-- Nothing is lost of what is behind a write into one segment, of the old and of the new size. -/
theorem resumes_of_le (hold : offset % size + count ≤ size) (hnew : offset % size + count < chunk) :
    resumes size chunk offset count = offset + count := by
  rw [resumes, Nat.div_eq_of_lt hnew, Nat.mod_eq_of_lt hnew, Nat.add_zero, Nat.min_eq_left hold,
    ← Nat.add_assoc, Nat.div_add_mod']

theorem le_resumes (hsize : 0 < size) : offset ≤ resumes size chunk offset count := by
  have hwhere : offset / size * size + offset % size = offset := Nat.div_add_mod' offset size
  have hlt : offset % size < size := Nat.mod_lt offset hsize
  have hmod := Nat.mod_add_div (offset % size + count) chunk
  rw [resumes, Nat.add_mul]
  rcases Nat.eq_zero_or_pos ((offset % size + count) / chunk) with hzero | hpos
  · rw [hzero, Nat.mul_zero] at hmod
    rw [hzero]
    omega
  · have := Nat.le_mul_of_pos_left size hpos
    omega

/-- What a write that is not blocked leaves is what it should leave, if it resumes where the data ends
or where there is nothing left. -/
theorem eq_splice_iff {data : Bytes} (hsize : 0 < size)
    (hfree : ¬Blocked size chunk offset old.length) :
    (Bytes.extend old offset).take offset ++ data ++ old.drop (resumes size chunk offset data.length)
        = Bytes.splice old offset data ↔
      data = [] ∨ min (resumes size chunk offset data.length) old.length
        = min (offset + data.length) old.length := by
  have hnothing : data = [] → min (resumes size chunk offset data.length) old.length
      = min (offset + data.length) old.length := by
    rintro rfl
    have hle : offset ≤ resumes size chunk offset 0 := le_resumes hsize
    rcases Nat.lt_or_ge offset old.length with hin | hend
    · have hroom : offset % size < chunk := Nat.not_le.1 fun hle => hfree ⟨hin, hle⟩
      rw [List.length_nil, resumes_of_le (Nat.le_of_lt (Nat.mod_lt offset hsize)) hroom]
    · rw [List.length_nil]
      omega
  rw [Bytes.splice, List.append_right_inj, List.drop_eq_drop_iff, or_iff_right_of_imp hnothing]

end Resumes

/-! ## Files of another volume -/

/-- Volumes that differ in no more than the size of segments look at the same segments. -/
theorem Pieces.of_container (h : w.Pieces m name pieces) (hcontainer : w.container = v.container) :
    v.Pieces m name pieces := by
  have hsegments : w.segmentsContainer = v.segmentsContainer := congrArg Segment.containerOf hcontainer
  obtain ⟨hfits, hzero, hpiece, hplain⟩ := h
  simp only [segment?, hsegments] at hzero hpiece hplain
  exact ⟨hfits, hzero, hpiece, hplain⟩

/-- What a write does to a file whose segments are chunks of another size. -/
theorem write_chunks_ensures {size : Nat} (hsize : 0 < size) (hm : v.Ready m)
    (hpath : Path.isBelowRoot path = true) (hmanifest : v.HasManifest m (v.storeName path))
    (h : v.Pieces m (v.storeName path) (Bytes.chunks size old)) (hwhole : source.failure = none)
    (hfits : chunkCount size old.length + (offset + source.bytes.length) / v.chunkSize
      < Segment.maxSequence) :
    (Blocked size v.chunkSize offset old.length →
      Interaction.Ensures (answer.mayFail fails) (v.write path offset source) m
        (v.Leaves (v.storeName path) fails 0 old m)) ∧
    (¬Blocked size v.chunkSize offset old.length →
      Interaction.Ensures (answer.mayFail fails) (v.write path offset source) m
        (v.Leaves (v.storeName path) fails source.bytes.length
          ((Bytes.extend old offset).take offset ++ source.bytes
            ++ old.drop (resumes size v.chunkSize offset source.bytes.length)) m)) := by
  rcases Nat.lt_or_ge offset old.length with hin | hend
  · have hwhere : offset / size * size + offset % size = offset := Nat.div_add_mod' offset size
    have hlt : offset % size < size := Nat.mod_lt offset hsize
    have hindex : offset / size < chunkCount size old.length :=
      (Bytes.lt_chunkCount_iff hsize).2 (by omega)
    obtain ⟨before, piece, after, hsplit, hcount, hbefore, hpiece, hdrop⟩ :=
      Bytes.exists_chunks_eq hsize hin
    rw [hsplit] at h
    have hstart : before.flatten.length = offset / size * size := by
      rw [hbefore, List.length_take]
      omega
    have hlength : piece.length = min size (old.length - offset / size * size) := by
      rw [hpiece, List.length_take, List.length_drop]
    have hlow : before.flatten.length ≤ offset := by omega
    have hhigh : offset < before.flatten.length + piece.length := by omega
    have hleading : offset - before.flatten.length = offset % size := by omega
    have hretained : min (offset - before.flatten.length) piece.length = offset % size := by omega
    constructor
    · intro hblocked
      have hwrite : Interaction.Ensures (answer.mayFail fails) (v.write path offset source) m _ :=
        write_blocked_ensures hm hpath hmanifest h hlow (.inl hhigh) (by rw [hretained]; exact hblocked.2)
      rwa [← hsplit, Bytes.flatten_chunks hsize] at hwrite
    · intro hfree
      have hroom : offset % size < v.chunkSize := Nat.not_le.1 fun hle => hfree ⟨hin, hle⟩
      have hquot : (offset % size + source.bytes.length) / v.chunkSize
          ≤ (offset + source.bytes.length) / v.chunkSize := Nat.div_le_div_right (by omega)
      have hwrite : Interaction.Ensures (answer.mayFail fails) (v.write path offset source) m _ :=
        write_inside_ensures hm hpath hmanifest h hlow (.inl hhigh) hwhole (by rwa [hretained])
          (by rw [hleading, hcount]; omega)
      have hkept : before.flatten ++ piece.take (offset % size) = old.take offset := by
        rw [hbefore, hpiece, List.take_take, Nat.min_eq_left (Nat.le_of_lt hlt), ← List.take_add,
          hwhere]
      rw [hleading, hkept, hdrop, Bytes.leftover_chunks hsize,
        Bytes.extend_of_le (by rw [List.length_take]; omega)] at hwrite
      rwa [Bytes.extend_of_le (Nat.le_of_lt hin)]
  · have hgone : old.drop (resumes size v.chunkSize offset source.bytes.length) = [] :=
      List.drop_eq_nil_of_le (Nat.le_trans hend (le_resumes hsize))
    have hflatten : (Bytes.chunks size old).flatten = old := Bytes.flatten_chunks hsize
    refine ⟨fun hblocked => absurd hblocked.1 (Nat.not_lt.2 hend), fun _ => ?_⟩
    have hwrite : Interaction.Ensures (answer.mayFail fails) (v.write path offset source) m _ :=
      write_behind_ensures hm hpath hmanifest h (by rwa [hflatten]) hwhole
        (by rwa [Bytes.length_chunks])
    rw [hgone, List.append_nil, List.take_of_length_le (by rw [Bytes.length_extend]; omega)]
    rwa [hflatten] at hwrite

/-- A file in pieces reads as its pieces put together. -/
theorem Pieces.readAll_runOn (h : v.Pieces m (v.storeName path) pieces)
    (hmanifest : v.HasManifest m (v.storeName path)) (hforeign : v.NoForeign m (v.storeName path))
    (hpath : Path.isBelowRoot path = true) :
    ∃ read, (v.readAll path).runOn answer m = (.ok read, m) ∧ read.bytes = pieces.flatten := by
  obtain ⟨o, ho, href⟩ := hmanifest
  exact ⟨m.resolve o, Volume.readAll_runOn hpath ho, h.bytes_resolve hforeign href⟩

/-- Where no call fails, what a write leaves is read. -/
theorem exists_read_of_leaves (hpath : Path.isBelowRoot path = true)
    (hmanifest : v.HasManifest m (v.storeName path)) (hforeign : v.NoForeign m (v.storeName path))
    (h : Interaction.Ensures (answer.mayFail never) (v.write path offset source) m
      (v.Leaves (v.storeName path) never count content m)) :
    ∃ t read, (v.write path offset source).runOn answer m = (.ok count, t) ∧
      (v.readAll path).runOn answer t = (.ok read, t) ∧ read.bytes = content := by
  cases hrun : (v.write path offset source).runOn answer m with
  | mk r t =>
    have hleaves := h r t (outcome_never_iff.2 hrun)
    cases r with
    | error failure =>
      obtain ⟨_, hcall⟩ := hleaves
      exact hcall.elim
    | ok stored =>
      obtain ⟨rfl, ht, pieces, hpieces, rfl⟩ := hleaves
      obtain ⟨o, ho, href⟩ := hmanifest
      obtain ⟨read, hread, hbytes⟩ := hpieces.readAll_runOn ⟨o, ht.file.trans ho, href⟩
        (ht.toConfined.noForeign hforeign hpieces.numbered) hpath
      exact ⟨t, read, rfl, hread, hbytes⟩

section Rechunked

variable (offset : Nat) (source : Source) (hm : v.Ready m) (hpath : Path.isBelowRoot path = true)
  (hcontainer : w.container = v.container) (hroot : w.root = v.root)
  (hfile : w.Segmented m (w.storeName path) old) (hforeign : v.NoForeign m (v.storeName path))
  (hwhole : source.failure = none)
  (hfits : chunkCount w.chunkSize old.length + (offset + source.bytes.length) / v.chunkSize
    < Segment.maxSequence)

include hm hpath hcontainer hroot hfile hforeign hwhole hfits

/-- What is read after a write to a file of another volume. -/
theorem exists_read_of_rechunked :
    (Blocked w.chunkSize v.chunkSize offset old.length →
      ∃ t read, (v.write path offset source).runOn answer m = (.ok 0, t) ∧
        (v.readAll path).runOn answer t = (.ok read, t) ∧ read.bytes = old) ∧
    (¬Blocked w.chunkSize v.chunkSize offset old.length →
      ∃ t read, (v.write path offset source).runOn answer m = (.ok source.bytes.length, t) ∧
        (v.readAll path).runOn answer t = (.ok read, t) ∧
        read.bytes = (Bytes.extend old offset).take offset ++ source.bytes
          ++ old.drop (resumes w.chunkSize v.chunkSize offset source.bytes.length)) := by
  have hname : w.storeName path = v.storeName path := by
    rw [storeName, storeName, hroot]
  have hmanifest : v.HasManifest m (v.storeName path) := by
    obtain ⟨o, ho, href⟩ := hfile.object
    rw [hname, hcontainer] at ho
    rw [hname, manifestRef, segmentsContainer, hcontainer] at href
    exact ⟨o, ho, href⟩
  have hpieces : v.Pieces m (v.storeName path) (Bytes.chunks w.chunkSize old) :=
    hname ▸ hfile.stores.toPieces.of_container hcontainer
  obtain ⟨hblocked, hfree⟩ :=
    write_chunks_ensures w.chunkSize_pos hm hpath hmanifest hpieces hwhole hfits
  exact ⟨fun h => exists_read_of_leaves hpath hmanifest hforeign (hblocked h),
    fun h => exists_read_of_leaves hpath hmanifest hforeign (hfree h)⟩

/-- A write over segments of another size stores nothing where it is blocked. Elsewhere it stores all of
its data, and the old bytes go on behind them where `resumes` says. So the data is in the place of as
many old bytes, and the others are kept, if and only if there is no data, or the write is not blocked
and the old bytes go on where the data ends or have ended before. -/
theorem write_rechunked_iff :
    ∃ stored t read, (v.write path offset source).runOn answer m = (.ok stored, t) ∧
      (v.readAll path).runOn answer t = (.ok read, t) ∧
      (Blocked w.chunkSize v.chunkSize offset old.length → stored = 0 ∧ read.bytes = old) ∧
      (¬Blocked w.chunkSize v.chunkSize offset old.length → stored = source.bytes.length ∧
        read.bytes = (Bytes.extend old offset).take offset ++ source.bytes
          ++ old.drop (resumes w.chunkSize v.chunkSize offset source.bytes.length)) ∧
      (stored = source.bytes.length ∧ read.bytes = Bytes.splice old offset source.bytes ↔
        source.bytes = [] ∨ ¬Blocked w.chunkSize v.chunkSize offset old.length ∧
          min (resumes w.chunkSize v.chunkSize offset source.bytes.length) old.length
            = min (offset + source.bytes.length) old.length) := by
  obtain ⟨hblocked, hfree⟩ :=
    exists_read_of_rechunked offset source hm hpath hcontainer hroot hfile hforeign hwhole hfits
  by_cases h : Blocked w.chunkSize v.chunkSize offset old.length
  · obtain ⟨t, read, hrun, hread, hbytes⟩ := hblocked h
    refine ⟨0, t, read, hrun, hread, fun _ => ⟨rfl, hbytes⟩, fun hnot => absurd h hnot, ?_⟩
    rw [or_iff_left fun hnot => hnot.1 h]
    constructor
    · intro hright
      exact List.length_eq_zero_iff.1 hright.1.symm
    · intro hnothing
      rw [hnothing, Bytes.splice_nil, Bytes.extend_of_le (Nat.le_of_lt h.1)]
      exact ⟨rfl, hbytes⟩
  · obtain ⟨t, read, hrun, hread, hbytes⟩ := hfree h
    refine ⟨_, t, read, hrun, hread, fun hyes => absurd hyes h, fun _ => ⟨rfl, hbytes⟩, ?_⟩
    rw [hbytes, eq_splice_iff w.chunkSize_pos h, and_iff_right rfl, and_iff_right h]

end Rechunked

/-- The volume with the smaller segments. -/
def halfVolume : Volume := ⟨"files", "", 2, by decide, true⟩

/-- A file of one segment of four bytes is stored in a new container. -/
theorem exists_four_bytes : ∃ t,
    (sampleVolume.write "/f" 0 (.ofPieces [⟨#[1, 2, 3, 4]⟩] none)).runOn answer
        (fresh "files" true Timestamp.epoch) = (.ok 4, t) ∧
      sampleVolume.Segmented t (sampleVolume.storeName "/f") [1, 2, 3, 4] ∧
      halfVolume.Ready t ∧ halfVolume.NoForeign t (halfVolume.storeName "/f") := by
  obtain ⟨t, hrun, hfile, hm, hforeign⟩ := exists_stored ⟨#[1, 2, 3, 4]⟩ (by decide)
  exact ⟨t, hrun, hfile, ⟨hm.container, hm.segments, hm.putBudget⟩, hforeign⟩

/-- The first of four bytes is written over in segments of two. -/
theorem write_rechunked_iff_of_first_byte : ∃ t u read,
    (sampleVolume.write "/f" 0 (.ofPieces [⟨#[1, 2, 3, 4]⟩] none)).runOn answer
        (fresh "files" true Timestamp.epoch) = (.ok 4, t) ∧
      (halfVolume.write "/f" 0 (.ofPieces [⟨#[255]⟩] none)).runOn answer t = (.ok 1, u) ∧
      (halfVolume.readAll "/f").runOn answer u = (.ok read, u) ∧ read.bytes = [255, 2, 3, 4] := by
  have hbytes : (Source.ofPieces [⟨#[255]⟩] none).bytes = [255] := by decide
  obtain ⟨t, hrun, hfile, hm, hforeign⟩ := exists_four_bytes
  obtain ⟨stored, u, read, hwrite, hread, -, -, hiff⟩ := write_rechunked_iff (w := sampleVolume) 0
    (.ofPieces [⟨#[255]⟩] none) hm (by decide) rfl rfl hfile hforeign rfl (by rw [hbytes]; decide)
  rw [hbytes] at hiff
  obtain ⟨rfl, hcontent⟩ := hiff.2 (.inr ⟨fun h => absurd h.2 (by decide), by decide⟩)
  exact ⟨t, u, read, hrun, hwrite, hread, hcontent⟩

/-- Two bytes fill a segment of two, which takes the place of all four. -/
theorem write_in_halves_loses_rest : ∃ t u read,
    (sampleVolume.write "/f" 0 (.ofPieces [⟨#[1, 2, 3, 4]⟩] none)).runOn answer
        (fresh "files" true Timestamp.epoch) = (.ok 4, t) ∧
      (halfVolume.write "/f" 0 (.ofPieces [⟨#[255, 255]⟩] none)).runOn answer t = (.ok 2, u) ∧
      (halfVolume.readAll "/f").runOn answer u = (.ok read, u) ∧ read.bytes = [255, 255] ∧
      Bytes.splice [1, 2, 3, 4] 0 [255, 255] = [255, 255, 3, 4] := by
  have hbytes : (Source.ofPieces [⟨#[255, 255]⟩] none).bytes = [255, 255] := by decide
  obtain ⟨t, hrun, hfile, hm, hforeign⟩ := exists_four_bytes
  obtain ⟨u, read, hwrite, hread, hcontent⟩ := (exists_read_of_rechunked (w := sampleVolume) 0
    (.ofPieces [⟨#[255, 255]⟩] none) hm (by decide) rfl rfl hfile hforeign rfl
    (by rw [hbytes]; decide)).2 fun h => absurd h.2 (by decide)
  rw [hbytes] at hwrite hcontent
  exact ⟨t, u, read, hrun, hwrite, hread, hcontent, by decide⟩

end SegmentedFiles.Volume
