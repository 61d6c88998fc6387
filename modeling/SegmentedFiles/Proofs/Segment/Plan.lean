import SegmentedFiles.Proofs.Bytes.Chunk
import SegmentedFiles.Segment.Plan

/-! # The plan for a write into a file that is cut into chunks

Where the lengths of the segments are those of the chunks of some bytes, the plan can be said without a
look through the segments (`make_of_chunkLengths`): the write begins in the chunk in which the offset
lies, what this chunk has in front of the offset is kept and the rest is filled with zeros, and if the
offset lies past the last chunk, that one is filled up and the chunks between are written with zeros. For
segments of other lengths the plan is what the look through them finds (`make_of_inside`,
`make_of_beyond`). -/

namespace SegmentedFiles.WritePlan

open Bytes (chunkCount chunkLength? lt_chunkCount_iff chunkCount_le_iff)

variable {offset chunk length i : Nat} {lengths : List Nat}

/-- All segments take up a chunk in the look for an offset. -/
theorem locate_of_chunkLengths (hchunk : 0 < chunk) (hi : i ≤ chunkCount chunk length)
    (hoffset : i * chunk ≤ offset) (hlengths : ∀ j, lengths[j]? = chunkLength? chunk length (i + j)) :
    locate offset chunk (i + 1) (i * chunk) lengths =
      if offset / chunk < chunkCount chunk length then
        .inside (offset / chunk + 1) (offset / chunk * chunk)
          (min chunk (length - offset / chunk * chunk))
      else .beyond (chunkCount chunk length + 1) (chunkCount chunk length * chunk) := by
  have hdiv : i ≤ offset / chunk := (Nat.le_div_iff_mul_le hchunk).2 hoffset
  induction lengths generalizing i with
  | nil =>
    have hlast : length ≤ i * chunk :=
      Bytes.chunkLength?_eq_none_iff.1 (by simpa using (hlengths 0).symm)
    have hcount : chunkCount chunk length = i :=
      Nat.le_antisymm ((chunkCount_le_iff hchunk).2 hlast) hi
    rw [hcount, if_neg (by omega)]
    rfl
  | cons first rest ih =>
    have hfirst : chunkLength? chunk length i = some first := by simpa using (hlengths 0).symm
    have hreach : i * chunk < length := by
      by_cases h : i * chunk < length
      · exact h
      · rw [Bytes.chunkLength?_eq_none_iff.2 (Nat.not_lt.1 h)] at hfirst
        cases hfirst
    rw [Bytes.chunkLength?_of_lt hreach, Option.some.injEq] at hfirst
    have hcount : i < chunkCount chunk length := (lt_chunkCount_iff hchunk).2 hreach
    -- A segment with another behind it is a whole chunk, and the last takes up one.
    have hspan : (if rest.isEmpty then max first chunk else first) = chunk := by
      cases rest with
      | nil => simp only [List.isEmpty_nil, if_true]; omega
      | cons second rest =>
        have hsecond := hlengths 1
        have hnext : (i + 1) * chunk < length := by
          by_cases h : (i + 1) * chunk < length
          · exact h
          · rw [Bytes.chunkLength?_eq_none_iff.2 (Nat.not_lt.1 h)] at hsecond
            simp at hsecond
        rw [Nat.succ_mul] at hnext
        simp only [List.isEmpty_cons, Bool.false_eq_true, if_false]
        omega
    rw [locate, hspan]
    by_cases hin : offset < i * chunk + chunk
    · have hquot : offset / chunk = i :=
        Nat.le_antisymm (Nat.lt_succ_iff.1 ((Nat.div_lt_iff_lt_mul hchunk).2
          (by rw [Nat.succ_mul]; exact hin))) hdiv
      simp only [if_pos hin, hquot, if_pos hcount, hfirst]
    · have hnext : (i + 1) * chunk = i * chunk + chunk := Nat.succ_mul i chunk
      have hnextOffset : (i + 1) * chunk ≤ offset := by omega
      simp only [if_neg hin]
      rw [← hnext]
      refine ih hcount hnextOffset ?_ ((Nat.le_div_iff_mul_le hchunk).2 hnextOffset)
      intro j
      rw [← Nat.add_right_comm, Nat.add_assoc, ← hlengths (j + 1), List.getElem?_cons_succ]

theorem length_of_chunkLengths (hchunk : 0 < chunk)
    (hlengths : ∀ j, lengths[j]? = chunkLength? chunk length j) :
    lengths.length = chunkCount chunk length := by
  have hiff : ∀ j, lengths.length ≤ j ↔ chunkCount chunk length ≤ j := by
    intro j
    rw [chunkCount_le_iff hchunk, ← Bytes.chunkLength?_eq_none_iff, ← hlengths,
      List.getElem?_eq_none_iff]
  exact Nat.le_antisymm ((hiff _).2 (Nat.le_refl _)) ((hiff _).1 (Nat.le_refl _))

/-- The last segment is short if it ends before its chunk does. -/
theorem shortTail?_of_chunkLengths (hchunk : 0 < chunk)
    (hlengths : ∀ j, lengths[j]? = chunkLength? chunk length j) :
    shortTail? lengths chunk =
      if length < chunkCount chunk length * chunk then
        some ⟨chunkCount chunk length, length - (chunkCount chunk length - 1) * chunk⟩
      else none := by
  have hcount := length_of_chunkLengths hchunk hlengths
  rw [shortTail?, List.getLast?_eq_getElem?, hcount, hlengths]
  by_cases hpos : 0 < chunkCount chunk length
  · obtain ⟨k, hk⟩ := Nat.exists_eq_succ_of_ne_zero (Nat.ne_of_gt hpos)
    have hreach : k * chunk < length := (lt_chunkCount_iff hchunk).1 (by omega)
    have hsucc : (k + 1) * chunk = k * chunk + chunk := Nat.succ_mul k chunk
    rw [hk, Nat.succ_eq_add_one, Nat.add_sub_cancel, Bytes.chunkLength?_of_lt hreach]
    by_cases hshort : length < (k + 1) * chunk
    · rw [if_pos hshort]
      simp only
      rw [if_pos (by omega), Nat.min_eq_right (by omega)]
    · rw [if_neg hshort]
      simp only
      rw [if_neg (by omega)]
  · have hzero : chunkCount chunk length = 0 := by omega
    have hlength : length ≤ 0 * chunk := (chunkCount_le_iff hchunk).1 (by omega)
    rw [hzero, Nat.zero_sub, Bytes.chunkLength?_eq_none_iff.2 hlength, if_neg (by omega)]

/-- The plan for a write into `length` bytes that are cut into chunks. -/
theorem make_of_chunkLengths (hchunk : 0 < chunk)
    (hlengths : ∀ j, lengths[j]? = chunkLength? chunk length j) :
    make offset lengths chunk =
      { sequence := offset / chunk + 1
        cursor := offset / chunk * chunk
        retained := min (offset % chunk) (length - offset / chunk * chunk)
        zeroFill := offset % chunk - min (offset % chunk) (length - offset / chunk * chunk)
        completeTail :=
          if chunkCount chunk length ≤ offset / chunk ∧
              length < chunkCount chunk length * chunk then
            some ⟨chunkCount chunk length, length - (chunkCount chunk length - 1) * chunk⟩
          else none
        zeroStart := min (chunkCount chunk length) (offset / chunk) + 1
        zeroStop := offset / chunk + 1 } := by
  have hmod : offset / chunk * chunk + offset % chunk = offset := Nat.div_add_mod' offset chunk
  have hlt : offset % chunk < chunk := Nat.mod_lt offset hchunk
  have hzero : 0 * chunk ≤ offset := by simp
  have hlocate := locate_of_chunkLengths hchunk (Nat.zero_le _) hzero (by simpa using hlengths)
  rw [Nat.zero_mul, Nat.zero_add] at hlocate
  rw [make, hlocate]
  by_cases hin : offset / chunk < chunkCount chunk length
  · have hrest : offset - offset / chunk * chunk = offset % chunk := by omega
    have hkept : min (offset % chunk) (min chunk (length - offset / chunk * chunk))
        = min (offset % chunk) (length - offset / chunk * chunk) := by omega
    simp only [if_pos hin, hrest, hkept, Nat.not_le.2 hin, false_and, if_false,
      Nat.min_eq_right (Nat.le_of_lt hin)]
  · have hcount : chunkCount chunk length ≤ offset / chunk := Nat.not_lt.1 hin
    have hend : length ≤ offset / chunk * chunk := (chunkCount_le_iff hchunk).1 hcount
    have hgap : (offset - chunkCount chunk length * chunk) / chunk
        = offset / chunk - chunkCount chunk length := by
      rw [Nat.mul_comm, Nat.sub_mul_div]
    have hstart : chunkCount chunk length * chunk
        + (offset / chunk - chunkCount chunk length) * chunk = offset / chunk * chunk := by
      rw [← Nat.add_mul, Nat.add_sub_of_le hcount]
    have hkept : min (offset % chunk) (length - offset / chunk * chunk) = 0 := by omega
    have hfill : offset - offset / chunk * chunk = offset % chunk := by omega
    have hsequence : chunkCount chunk length + 1 + (offset / chunk - chunkCount chunk length)
        = offset / chunk + 1 := by omega
    simp only [if_neg hin, hgap, hstart, hkept, hfill, hsequence, Nat.sub_zero,
      shortTail?_of_chunkLengths hchunk hlengths, hcount, true_and, Nat.min_eq_left]

/-! ## Segments of any lengths -/

variable {before after : List Bytes} {piece : Bytes} {sequence cursor stop : Nat}

/-- An offset is found in the piece it lies in, or in the last one if that would have to be filled up to
a chunk for it. -/
theorem locate_inside (hlow : cursor + before.flatten.length ≤ offset)
    (hhigh : offset < cursor + before.flatten.length + piece.length ∨
      after = [] ∧ offset < cursor + before.flatten.length + chunk) :
    locate offset chunk sequence cursor ((before ++ piece :: after).map List.length)
      = .inside (sequence + before.length) (cursor + before.flatten.length) piece.length := by
  induction before generalizing sequence cursor with
  | nil =>
    rw [List.flatten_nil, List.length_nil, Nat.add_zero] at hlow hhigh
    rw [List.nil_append, List.map_cons, locate, if_pos ?_]
    · rfl
    · rcases hhigh with hin | ⟨rfl, hin⟩
      · split <;> omega
      · rw [List.map_nil, List.isEmpty_nil, if_pos rfl]
        omega
  | cons first rest ih =>
    rw [List.flatten_cons, List.length_append, ← Nat.add_assoc] at hlow hhigh
    have hmore : ((rest ++ piece :: after).map List.length).isEmpty = false := by simp
    simp only [List.cons_append, List.map_cons, locate, hmore, Bool.false_eq_true, if_false]
    rw [if_neg (by omega), ih hlow hhigh, List.length_cons, List.flatten_cons, List.length_append,
      Nat.add_right_comm sequence, Nat.add_assoc sequence, Nat.add_assoc cursor]

/-- An offset that lies past all pieces is found behind the last one, which takes up a chunk. -/
theorem locate_beyond (h : cursor + before.flatten.length + max piece.length chunk ≤ offset) :
    locate offset chunk sequence cursor ((before ++ [piece]).map List.length)
      = .beyond (sequence + (before ++ [piece]).length)
          (cursor + before.flatten.length + max piece.length chunk) := by
  induction before generalizing sequence cursor with
  | nil =>
    rw [List.flatten_nil, List.length_nil, Nat.add_zero] at h
    simp only [List.nil_append, List.map_cons, List.map_nil, locate, List.isEmpty_nil, if_true]
    rw [if_neg (Nat.not_lt.2 h)]
    rfl
  | cons first rest ih =>
    rw [List.flatten_cons, List.length_append, ← Nat.add_assoc] at h
    have hmore : ((rest ++ [piece]).map List.length).isEmpty = false := by simp
    simp only [List.cons_append, List.map_cons, locate, hmore, Bool.false_eq_true, if_false]
    rw [if_neg (by omega), ih h, List.length_cons, List.flatten_cons, List.length_append,
      List.length_append, Nat.add_right_comm sequence, Nat.add_assoc sequence, Nat.add_assoc cursor]

theorem shortTail?_append : shortTail? ((before ++ [piece]).map List.length) chunk =
    if piece.length < chunk then some ⟨before.length + 1, piece.length⟩ else none := by
  rw [List.map_append, List.map_singleton, shortTail?, List.getLast?_concat, List.length_append,
    List.length_map, List.length_singleton]

/-- The plan for an offset in a piece, or behind the last one in the chunk that this begins. -/
theorem make_of_inside (hlow : before.flatten.length ≤ offset)
    (hhigh : offset < before.flatten.length + piece.length ∨
      after = [] ∧ offset < before.flatten.length + chunk) :
    make offset ((before ++ piece :: after).map List.length) chunk =
      { sequence := before.length + 1
        cursor := before.flatten.length
        retained := min (offset - before.flatten.length) piece.length
        zeroFill := offset - before.flatten.length
          - min (offset - before.flatten.length) piece.length
        completeTail := none
        zeroStart := before.length + 1
        zeroStop := before.length + 1 } := by
  rw [← Nat.zero_add before.flatten.length] at hlow hhigh
  rw [make, locate_inside hlow hhigh, Nat.add_comm, Nat.zero_add]

/-- The plan for an offset behind all segments, which take up `stop` bytes. -/
theorem make_of_beyond
    (h : locate offset chunk 1 0 lengths = .beyond (lengths.length + 1) stop) :
    make offset lengths chunk =
      { sequence := lengths.length + 1 + (offset - stop) / chunk
        cursor := stop + (offset - stop) / chunk * chunk
        retained := 0
        zeroFill := (offset - stop) % chunk
        completeTail := shortTail? lengths chunk
        zeroStart := lengths.length + 1
        zeroStop := lengths.length + 1 + (offset - stop) / chunk } := by
  have hmod := Nat.div_add_mod' (offset - stop) chunk
  rw [make, h]
  simp only [mk.injEq, true_and, and_true]
  omega

end SegmentedFiles.WritePlan
