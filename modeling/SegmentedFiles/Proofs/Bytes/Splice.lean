import SegmentedFiles.Payload

/-! # Writing bytes over bytes

`Bytes.splice old offset data` is what a file has after a write of `data` at `offset` over `old`: the
old bytes, extended with zeros if they end before the offset, with the bytes from the offset on replaced
by the data. All laws are read off from what is found at a position (`getElem?_splice`); the one that
matters most is that two writes in a row are one (`splice_splice`). -/

namespace SegmentedFiles

/-- The bytes of a content, as a list. -/
abbrev Bytes := List UInt8

/-- The content as a list of bytes. -/
def Payload.bytes (content : Payload) : Bytes := content.data.toList

namespace Payload

variable {content other : Payload}

@[simp] theorem length_bytes : content.bytes.length = content.size := by
  rw [bytes, Array.length_toList, ByteArray.size_data]

theorem bytes_inj : content.bytes = other.bytes ↔ content = other := by
  rw [bytes, bytes, Array.toList_inj]
  exact ⟨ByteArray.ext, congrArg _⟩

@[simp] theorem bytes_empty : bytes ByteArray.empty = [] := rfl

@[simp] theorem bytes_append : (content ++ other).bytes = content.bytes ++ other.bytes := by
  simp [bytes]

@[simp] theorem bytes_zeros (n : Nat) : (zeros n).bytes = List.replicate n 0 :=
  toList_data_zeros n

theorem bytes_extract (start stop : Nat) :
    bytes (content.extract start stop) = (content.bytes.drop start).take (stop - start) := by
  simp [bytes, List.extract_eq_take_drop]

end Payload

namespace Bytes

/-- The bytes with zeros behind them up to `n` bytes, if there are fewer. -/
def extend (bytes : Bytes) (n : Nat) : Bytes := bytes ++ List.replicate (n - bytes.length) 0

/-- The bytes `old`, extended to `offset`, with `data` in the place of those from `offset` on. -/
def splice (old : Bytes) (offset : Nat) (data : Bytes) : Bytes :=
  (old.extend offset).take offset ++ data ++ old.drop (offset + data.length)

variable {old data more : Bytes} {offset n i : Nat}

@[simp] theorem length_extend : (extend old n).length = max old.length n := by
  simp only [extend, List.length_append, List.length_replicate]
  omega

theorem extend_of_le (h : n ≤ old.length) : extend old n = old := by
  rw [extend, Nat.sub_eq_zero_of_le h, List.replicate_zero, List.append_nil]

theorem extend_extend {n' : Nat} (h : n ≤ n') : extend (extend old n) n' = extend old n' := by
  simp only [extend, List.append_assoc, List.replicate_append_replicate, List.length_append,
    List.length_replicate]
  congr 2
  omega

theorem extend_append_zeros {k : Nat} (h : old.length ≤ n) :
    extend old n ++ List.replicate k 0 = extend old (n + k) := by
  rw [extend, extend, List.append_assoc, List.replicate_append_replicate, Nat.sub_add_comm h]

/-- To extend the end of the bytes is to extend all of them. -/
theorem append_extend : old ++ extend more n = extend (old ++ more) (old.length + n) := by
  rw [extend, extend, List.length_append, Nat.add_sub_add_left, List.append_assoc]

theorem getElem?_extend : (extend old n)[i]? =
    if i < old.length then old[i]? else if i < n then some 0 else none := by
  rw [extend, List.getElem?_append, List.getElem?_replicate]
  split
  · rfl
  · next h =>
    by_cases hn : i < n
    · rw [if_pos (by omega), if_pos hn]
    · rw [if_neg (by omega), if_neg hn]

@[simp] theorem length_splice :
    (splice old offset data).length = max old.length (offset + data.length) := by
  simp only [splice, List.length_append, List.length_take, length_extend, List.length_drop]
  omega

/-- Before the offset the extended old bytes are found, then the data, and then the old bytes. -/
theorem getElem?_splice : (splice old offset data)[i]? =
    if i < offset then (extend old offset)[i]?
    else if i < offset + data.length then data[i - offset]? else old[i]? := by
  have hlength : ((extend old offset).take offset).length = offset := by
    rw [List.length_take, length_extend]
    omega
  rw [splice, List.append_assoc, List.getElem?_append, hlength]
  by_cases hi : i < offset
  · rw [if_pos hi, if_pos hi, List.getElem?_take_of_lt hi]
  · rw [if_neg hi, if_neg hi, List.getElem?_append]
    by_cases hd : i < offset + data.length
    · rw [if_pos (by omega), if_pos hd]
    · rw [if_neg (by omega), if_neg hd, List.getElem?_drop]
      congr 1
      omega

theorem getElem?_splice_of_lt (h : i < offset) :
    (splice old offset data)[i]? = (extend old offset)[i]? := by
  rw [getElem?_splice, if_pos h]

theorem getElem?_splice_of_le (h : offset + data.length ≤ i) :
    (splice old offset data)[i]? = old[i]? := by
  rw [getElem?_splice, if_neg (by omega), if_neg (by omega)]

theorem getElem?_splice_add (h : i < data.length) :
    (splice old offset data)[offset + i]? = data[i]? := by
  rw [getElem?_splice, if_neg (by omega), if_pos (by omega), Nat.add_sub_cancel_left]

/-- A write where the bytes end is put behind them. -/
theorem splice_length : splice old old.length data = old ++ data := by
  rw [splice, extend_of_le (Nat.le_refl _), List.take_length, List.drop_eq_nil_of_le (by omega),
    List.append_nil]

/-- A write of nothing extends the bytes up to the offset. -/
theorem splice_nil : splice old offset [] = extend old offset := by
  apply List.ext_getElem?
  intro i
  rw [getElem?_splice]
  by_cases hi : i < offset
  · rw [if_pos hi]
  · rw [if_neg hi, List.length_nil, Nat.add_zero, if_neg hi, getElem?_extend, if_neg hi]
    by_cases hold : i < old.length
    · rw [if_pos hold]
    · rw [if_neg hold, List.getElem?_eq_none (by omega)]

/-- An extension that does not go past the offset makes no difference to a write. -/
theorem splice_extend (h : n ≤ offset) : splice (extend old n) offset data = splice old offset data := by
  apply List.ext_getElem?
  intro i
  rw [getElem?_splice, getElem?_splice]
  by_cases hi : i < offset
  · rw [if_pos hi, if_pos hi, extend_extend h]
  · rw [if_neg hi, if_neg hi]
    by_cases hd : i < offset + data.length
    · rw [if_pos hd, if_pos hd]
    · rw [if_neg hd, if_neg hd, getElem?_extend, if_neg (show ¬i < n by omega)]
      by_cases hold : i < old.length
      · rw [if_pos hold]
      · rw [if_neg hold, List.getElem?_eq_none (by omega)]

theorem extend_splice (h : n ≤ offset + data.length) :
    extend (splice old offset data) n = splice old offset data :=
  extend_of_le (by rw [length_splice]; omega)

/-- Two writes, the second where the first ends, are one write of both. -/
theorem splice_splice :
    splice (splice old offset data) (offset + data.length) more = splice old offset (data ++ more) := by
  apply List.ext_getElem?
  intro i
  rw [getElem?_splice, extend_splice (Nat.le_refl _), getElem?_splice, getElem?_splice,
    List.length_append, List.getElem?_append]
  by_cases hi : i < offset
  · rw [if_pos (by omega), if_pos hi, if_pos hi]
  · rw [if_neg hi, if_neg hi]
    by_cases hd : i < offset + data.length
    · rw [if_pos hd, if_pos hd, if_pos (by omega), if_pos (by omega)]
    · rw [if_neg hd, if_neg hd, if_neg (show ¬i - offset < data.length by omega)]
      by_cases hm : i < offset + data.length + more.length
      · rw [if_pos hm, if_pos (by omega), Nat.sub_sub]
      · rw [if_neg hm, if_neg (by omega)]

/-- Bytes that are there already may be left out of a write or put before it. -/
theorem splice_kept_append {start : Nat} (hstart : start + n = offset) (hold : offset ≤ old.length) :
    splice old start ((old.drop start).take n ++ data) = splice old offset data := by
  have hlength : ((old.drop start).take n).length = n := by
    rw [List.length_take, List.length_drop]
    omega
  have hsame : splice old start ((old.drop start).take n) = old := by
    apply List.ext_getElem?
    intro i
    rw [getElem?_splice, extend_of_le (by omega), hlength]
    by_cases hi : i < start
    · rw [if_pos hi]
    · rw [if_neg hi]
      by_cases hn : i < start + n
      · rw [if_pos hn, List.getElem?_take_of_lt (by omega), List.getElem?_drop]
        congr 1
        omega
      · rw [if_neg hn]
  rw [← splice_splice, hsame, hlength, hstart]

/-- Bytes that are there already may be left out of a write or put behind it. -/
theorem splice_append_kept :
    splice old offset (data ++ (old.drop (offset + data.length)).take n) = splice old offset data := by
  apply List.ext_getElem?
  intro i
  rw [getElem?_splice, getElem?_splice, List.length_append, List.getElem?_append]
  by_cases hi : i < offset
  · rw [if_pos hi, if_pos hi]
  · rw [if_neg hi, if_neg hi]
    by_cases hd : i < offset + data.length
    · rw [if_pos (by omega), if_pos (by omega), if_pos hd]
    · rw [if_neg hd, if_neg (show ¬i - offset < data.length by omega)]
      split
      · next hkept =>
        rw [List.length_take] at hkept
        rw [List.getElem?_take_of_lt (by omega), List.getElem?_drop]
        congr 1
        omega
      · rfl

/-- Zeros from the end of the bytes on extend them. -/
theorem splice_zeros (h : old.length ≤ offset) :
    splice old offset (List.replicate n 0) = extend old (offset + n) := by
  apply List.ext_getElem?
  intro i
  rw [getElem?_splice, getElem?_extend, getElem?_extend, List.length_replicate,
    List.getElem?_replicate]
  by_cases hi : i < old.length
  · rw [if_pos (by omega), if_pos hi, if_pos hi]
  · by_cases ho : i < offset
    · rw [if_pos ho, if_neg hi, if_pos ho, if_neg hi, if_pos (by omega)]
    · rw [if_neg ho, if_neg hi]
      by_cases hn : i < offset + n
      · rw [if_pos hn, if_pos (by omega), if_pos hn]
      · rw [if_neg hn, if_neg hn, List.getElem?_eq_none (by omega)]

/-- Zeros from the end of the bytes on may be put before a write. -/
theorem splice_zeros_append (h : old.length ≤ offset) :
    splice old offset (List.replicate n 0 ++ data) = splice old (offset + n) data := by
  have hzeros := splice_zeros (n := n) h
  have hlength : (List.replicate n (0 : UInt8)).length = n := List.length_replicate
  rw [← splice_splice, hzeros, hlength, splice_extend (Nat.le_refl _)]

end Bytes

/-- Content is filled up with zeros. -/
theorem Payload.bytes_resize {content : Payload} {n : Nat} (h : content.size ≤ n) :
    (content.resize n).bytes = content.bytes.extend n := by
  unfold Payload.resize
  split
  · next hle =>
    rw [Payload.bytes_extract, List.drop_zero, Nat.sub_zero, List.take_of_length_le (by simpa using h),
      Bytes.extend_of_le (by simpa using hle)]
  · rw [Payload.bytes_append, Payload.bytes_zeros, Bytes.extend, Payload.length_bytes]

end SegmentedFiles
