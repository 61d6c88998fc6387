import SegmentedFiles.Proofs.Bytes.Splice

/-! # Bytes cut into chunks of one size

`chunk? size bytes i` is the `i`-th piece of bytes that are cut after each `size` of them; only the last
piece may be shorter. A write that starts where a chunk starts, and does not end inside the bytes unless
it fills the chunk, changes that chunk alone (`chunk?_splice`). The chunks determine the bytes
(`eq_of_chunk?`), and all of them, put together again, are the bytes (`flatten_chunks`). -/

namespace SegmentedFiles.Bytes

/-- The `i`-th chunk, if the bytes reach it. -/
def chunk? (size : Nat) (bytes : Bytes) (i : Nat) : Option Bytes :=
  if i * size < bytes.length then some ((bytes.drop (i * size)).take size) else none

/-- The length of the `i`-th chunk of `length` bytes, if they reach it. -/
def chunkLength? (size length i : Nat) : Option Nat :=
  if i * size < length then some (min size (length - i * size)) else none

/-- The number of chunks of `length` bytes. -/
def chunkCount (size length : Nat) : Nat := (length + size - 1) / size

variable {size length i j : Nat} {bytes other data : Bytes}

theorem map_length_chunk? :
    (chunk? size bytes i).map List.length = chunkLength? size bytes.length i := by
  unfold chunk? chunkLength?
  split
  · rw [Option.map_some, List.length_take, List.length_drop]
  · rfl

theorem lt_chunkCount_iff (hsize : 0 < size) : i < chunkCount size length ↔ i * size < length := by
  rw [chunkCount, Nat.lt_iff_add_one_le, Nat.le_div_iff_mul_le hsize, Nat.add_mul, Nat.one_mul]
  omega

theorem chunkCount_le_iff (hsize : 0 < size) : chunkCount size length ≤ i ↔ length ≤ i * size := by
  have h : i < chunkCount size length ↔ i * size < length := lt_chunkCount_iff hsize
  omega

theorem chunkLength?_eq_none_iff : chunkLength? size length i = none ↔ length ≤ i * size := by
  unfold chunkLength?
  split
  · next h => simp only [reduceCtorEq, false_iff]; omega
  · next h => simp only [true_iff]; omega

theorem chunkLength?_of_lt (h : i * size < length) :
    chunkLength? size length i = some (min size (length - i * size)) :=
  if_pos h

theorem chunk?_of_lt (h : i * size < bytes.length) :
    chunk? size bytes i = some ((bytes.drop (i * size)).take size) :=
  if_pos h

/-- Two numbers of chunks are apart by a chunk at least. -/
theorem mul_add_le_of_lt (size : Nat) (h : i < j) : i * size + size ≤ j * size := by
  have := Nat.mul_le_mul_right size (Nat.succ_le_of_lt h)
  rwa [Nat.succ_mul] at this

theorem chunk?_splice_self (hsize : 0 < data.length) (hle : data.length ≤ size)
    (hstart : j * size ≤ bytes.length)
    (hend : data.length = size ∨ bytes.length ≤ j * size + data.length) :
    chunk? size (bytes.splice (j * size) data) j = some data := by
  have hlength : (bytes.splice (j * size) data).length
      = max bytes.length (j * size + data.length) := length_splice
  rw [chunk?_of_lt (by omega)]
  congr 1
  apply List.ext_getElem?
  intro p
  by_cases hp : p < size
  · rw [List.getElem?_take_of_lt hp, List.getElem?_drop]
    by_cases hd : p < data.length
    · exact getElem?_splice_add hd
    · rw [List.getElem?_eq_none (by omega), List.getElem?_eq_none (by omega)]
  · rw [List.getElem?_eq_none (by rw [List.length_take]; omega),
      List.getElem?_eq_none (by omega)]

theorem chunk?_splice_of_ne (hle : data.length ≤ size) (hstart : j * size ≤ bytes.length)
    (hne : i ≠ j) : chunk? size (bytes.splice (j * size) data) i = chunk? size bytes i := by
  have hlength : (bytes.splice (j * size) data).length
      = max bytes.length (j * size + data.length) := length_splice
  -- The chunk lies before the data or behind it, and is there after the write only if it was before.
  have hreach : i * size < (bytes.splice (j * size) data).length ↔ i * size < bytes.length := by
    rcases Nat.lt_or_gt_of_ne hne with h | h
    · have := mul_add_le_of_lt size h
      omega
    · have := mul_add_le_of_lt size h
      omega
  unfold chunk?
  by_cases hi : i * size < bytes.length
  · rw [if_pos (hreach.2 hi), if_pos hi]
    congr 1
    apply List.ext_getElem?
    intro p
    by_cases hp : p < size
    · rw [List.getElem?_take_of_lt hp, List.getElem?_take_of_lt hp, List.getElem?_drop,
        List.getElem?_drop]
      rcases Nat.lt_or_gt_of_ne hne with h | h
      · have := mul_add_le_of_lt size h
        rw [getElem?_splice_of_lt (by omega), extend_of_le hstart]
      · have := mul_add_le_of_lt size h
        rw [getElem?_splice_of_le (by omega)]
    · rw [List.getElem?_eq_none (by rw [List.length_take]; omega),
        List.getElem?_eq_none (by rw [List.length_take]; omega)]
  · rw [if_neg fun h => hi (hreach.1 h), if_neg hi]

/-- A write of at most a chunk where a chunk starts changes that chunk alone. -/
theorem chunk?_splice (hsize : 0 < data.length) (hle : data.length ≤ size)
    (hstart : j * size ≤ bytes.length)
    (hend : data.length = size ∨ bytes.length ≤ j * size + data.length) :
    chunk? size (bytes.splice (j * size) data) i = if i = j then some data else chunk? size bytes i := by
  split
  · next h => rw [h, chunk?_splice_self hsize hle hstart hend]
  · next h => exact chunk?_splice_of_ne hle hstart h

/-- Each byte lies in the chunk that its position belongs to. -/
theorem getElem?_eq_chunk? (hsize : 0 < size) :
    bytes[i]? = (chunk? size bytes (i / size)).bind fun chunk => chunk[i % size]? := by
  have hi : i / size * size + i % size = i := Nat.div_add_mod' i size
  have hmod : i % size < size := Nat.mod_lt i hsize
  unfold chunk?
  split
  · rw [Option.bind_some, List.getElem?_take_of_lt hmod, List.getElem?_drop, hi]
  · rw [Option.bind_none, List.getElem?_eq_none (by omega)]

theorem eq_of_chunk? (hsize : 0 < size) (h : ∀ i, chunk? size bytes i = chunk? size other i) :
    bytes = other := by
  apply List.ext_getElem?
  intro i
  rw [getElem?_eq_chunk? hsize, getElem?_eq_chunk? hsize, h]

/-! ## Pieces put together -/

theorem chunk?_append_zero {piece : Bytes} (hpos : 0 < piece.length)
    (h : piece.length = size ∨ piece.length ≤ size ∧ other = []) :
    chunk? size (piece ++ other) 0 = some piece := by
  rw [chunk?_of_lt (by rw [List.length_append]; omega), Nat.zero_mul, List.drop_zero]
  rcases h with rfl | ⟨hle, rfl⟩
  · rw [List.take_left]
  · rw [List.append_nil, List.take_of_length_le hle]

/-- The chunks from one on are those of what begins with it. -/
theorem chunk?_add : chunk? size bytes (i + j) = chunk? size (bytes.drop (i * size)) j := by
  unfold chunk?
  rw [Nat.add_mul, List.length_drop, List.drop_drop]
  by_cases hj : i * size + j * size < bytes.length
  · rw [if_pos hj, if_pos (by omega)]
  · rw [if_neg hj, if_neg (by omega)]

theorem chunk?_succ : chunk? size bytes (i + 1) = chunk? size (bytes.drop size) i := by
  rw [Nat.add_comm, chunk?_add, Nat.one_mul]

theorem chunk?_append_succ {piece : Bytes} (h : piece.length = size) :
    chunk? size (piece ++ other) (i + 1) = chunk? size other i := by
  rw [chunk?_succ, ← h, List.drop_left]

/-- Pieces of the size of a chunk, the last of which may be shorter, are the chunks of the bytes that
they make up together. -/
theorem chunk?_flatten {pieces : List Bytes}
    (hpieces : ∀ i piece, pieces[i]? = some piece →
      0 < piece.length ∧ piece.length ≤ size ∧ (i + 1 < pieces.length → piece.length = size)) :
    chunk? size pieces.flatten i = pieces[i]? := by
  induction pieces generalizing i with
  | nil => simp [chunk?]
  | cons piece rest ih =>
    obtain ⟨hpos, hle, hfull⟩ := hpieces 0 piece rfl
    have hrest : ∀ i, chunk? size rest.flatten i = rest[i]? := by
      intro i
      refine ih fun j other hother => ?_
      obtain ⟨hpos, hle, hfull⟩ := hpieces (j + 1) other hother
      exact ⟨hpos, hle, fun hj => hfull (Nat.succ_lt_succ hj)⟩
    rw [List.flatten_cons]
    cases rest with
    | nil =>
      cases i with
      | zero => exact chunk?_append_zero hpos (.inr ⟨hle, rfl⟩)
      | succ i =>
        have hmul : size ≤ (i + 1) * size := Nat.le_mul_of_pos_left size (Nat.succ_pos i)
        rw [chunk?, if_neg (by rw [List.flatten_nil, List.append_nil]; omega)]
        rfl
    | cons second rest =>
      have hsize : piece.length = size := hfull (by simp)
      cases i with
      | zero => exact chunk?_append_zero hpos (.inl hsize)
      | succ i => rw [chunk?_append_succ hsize, hrest, List.getElem?_cons_succ]

/-- Bytes are what their chunks make up together. -/
theorem flatten_of_chunk? {pieces : List Bytes} (hsize : 0 < size)
    (h : ∀ i, pieces[i]? = chunk? size bytes i) : pieces.flatten = bytes := by
  refine eq_of_chunk? hsize fun i => ?_
  rw [← h, chunk?_flatten]
  intro j piece hpiece
  have hlength := congrArg (Option.map List.length) ((h j).symm.trans hpiece)
  rw [map_length_chunk?] at hlength
  unfold chunkLength? at hlength
  split at hlength
  · next hj =>
    have hmin : min size (bytes.length - j * size) = piece.length := Option.some.inj hlength
    refine ⟨by omega, by omega, fun hnext => ?_⟩
    have hreach : (chunk? size bytes (j + 1)).isSome := by
      rw [← h, List.getElem?_eq_getElem hnext]
      rfl
    unfold chunk? at hreach
    split at hreach
    · next hlt =>
      rw [Nat.succ_mul] at hlt
      omega
    · cases hreach
  · cases hlength

/-! ## All chunks -/

/-- The chunks of bytes, in their order. -/
def chunks (size : Nat) (bytes : Bytes) : List Bytes :=
  (List.range (chunkCount size bytes.length)).map fun i => (bytes.drop (i * size)).take size

theorem length_chunks : (chunks size bytes).length = chunkCount size bytes.length := by
  rw [chunks, List.length_map, List.length_range]

theorem getElem?_chunks (hsize : 0 < size) : (chunks size bytes)[i]? = chunk? size bytes i := by
  rw [chunks, List.getElem?_map]
  by_cases hi : i < chunkCount size bytes.length
  · rw [List.getElem?_range hi, Option.map_some, chunk?_of_lt ((lt_chunkCount_iff hsize).1 hi)]
  · rw [List.getElem?_eq_none (by rw [List.length_range]; exact Nat.not_lt.1 hi), Option.map_none,
      chunk?, if_neg fun h => hi ((lt_chunkCount_iff hsize).2 h)]

/-- The chunks from one on make up the bytes from where it begins. -/
theorem flatten_drop_chunks (hsize : 0 < size) :
    ((chunks size bytes).drop i).flatten = bytes.drop (i * size) := by
  refine flatten_of_chunk? hsize fun j => ?_
  rw [List.getElem?_drop, getElem?_chunks hsize, chunk?_add]

theorem flatten_chunks (hsize : 0 < size) : (chunks size bytes).flatten = bytes :=
  flatten_of_chunk? hsize fun _ => getElem?_chunks hsize

theorem flatten_take_chunks (hsize : 0 < size) :
    ((chunks size bytes).take i).flatten = bytes.take (i * size) := by
  have hsplit : ((chunks size bytes).take i).flatten ++ bytes.drop (i * size)
      = bytes.take (i * size) ++ bytes.drop (i * size) := by
    rw [List.take_append_drop, ← flatten_drop_chunks hsize, ← List.flatten_append,
      List.take_append_drop, flatten_chunks hsize]
  exact List.append_cancel_right hsplit

theorem chunks_flatten {pieces : List Bytes} (hsize : 0 < size)
    (h : ∀ piece ∈ pieces, piece.length = size) : chunks size pieces.flatten = pieces := by
  apply List.ext_getElem?
  intro i
  rw [getElem?_chunks hsize, chunk?_flatten]
  intro j piece hpiece
  have hlength := h piece (List.mem_of_getElem? hpiece)
  exact ⟨by omega, Nat.le_of_eq hlength, fun _ => hlength⟩

/-- Bytes that end with a chunk are cut into whole ones. -/
theorem length_of_mem_chunks {piece : Bytes} (hsize : 0 < size) (hlength : bytes.length = i * size)
    (h : piece ∈ chunks size bytes) : piece.length = size := by
  obtain ⟨j, hj⟩ := List.mem_iff_getElem?.1 h
  have hchunk := congrArg (Option.map List.length) hj
  rw [getElem?_chunks hsize, map_length_chunk?, hlength] at hchunk
  unfold chunkLength? at hchunk
  split at hchunk
  · next hlt =>
    have hnext := mul_add_le_of_lt size (Nat.lt_of_mul_lt_mul_right hlt)
    have hmin : min size (i * size - j * size) = piece.length := Option.some.inj hchunk
    omega
  · cases hchunk

/-- Bytes that end with a chunk are extended by chunks of zeros. -/
theorem chunks_extend {n : Nat} (hsize : 0 < size) (hlength : bytes.length = i * size) :
    chunks size (extend bytes ((i + n) * size))
      = chunks size bytes ++ List.replicate n (List.replicate size 0) := by
  have hextend : extend bytes ((i + n) * size)
      = (chunks size bytes ++ List.replicate n (List.replicate size 0)).flatten := by
    rw [List.flatten_append, flatten_chunks hsize, List.flatten_replicate_replicate, extend, hlength,
      Nat.add_mul, Nat.add_sub_cancel_left]
  rw [hextend, chunks_flatten hsize]
  intro piece hpiece
  rcases List.mem_append.1 hpiece with hold | hzeros
  · exact length_of_mem_chunks hsize hlength hold
  · rw [List.eq_of_mem_replicate hzeros, List.length_replicate]

/-- The chunk in which a position lies, between those before it and those behind it. -/
theorem exists_chunks_eq (hsize : 0 < size) (hi : i < bytes.length) :
    ∃ before piece after, chunks size bytes = before ++ piece :: after ∧
      before.length = i / size ∧ before.flatten = bytes.take (i / size * size) ∧
      piece = (bytes.drop (i / size * size)).take size ∧
      piece :: after = (chunks size bytes).drop (i / size) := by
  have hstart : i / size * size < bytes.length := Nat.lt_of_le_of_lt (Nat.div_mul_le_self i size) hi
  have hindex : i / size < (chunks size bytes).length := by
    rwa [length_chunks, lt_chunkCount_iff hsize]
  have hdrop := List.drop_eq_getElem_cons hindex
  refine ⟨_, _, _, ?_, ?_, flatten_take_chunks hsize, ?_, hdrop.symm⟩
  · rw [← hdrop, List.take_append_drop]
  · rw [List.length_take, Nat.min_eq_left (Nat.le_of_lt hindex)]
  · have hchunk := (getElem?_chunks (i := i / size) hsize).trans (chunk?_of_lt hstart)
    rw [List.getElem?_eq_getElem hindex] at hchunk
    exact Option.some.inj hchunk

/-! ## Pieces that chunks are put over -/

/-- What is left of pieces once `count` bytes, cut into chunks, are put over them, each chunk over a
piece. The last of the bytes, if they do not fill a chunk, leave what the piece has behind them. -/
def leftover (size count : Nat) (pieces : List Bytes) : Bytes :=
  ((pieces.drop (count / size)).headD []).drop (count % size)
    ++ (pieces.drop (count / size + 1)).flatten

variable {count : Nat} {pieces : List Bytes}

theorem leftover_of_lt (h : count < size) :
    leftover size count pieces = (pieces.headD []).drop count ++ pieces.tail.flatten := by
  rw [leftover, Nat.div_eq_of_lt h, Nat.mod_eq_of_lt h, List.drop_zero, Nat.zero_add, List.drop_one]

/-- A whole chunk takes the place of the first piece. -/
theorem leftover_add (hsize : 0 < size) :
    leftover size (size + count) pieces = leftover size count pieces.tail := by
  rw [leftover, leftover, Nat.add_mod_left, Nat.add_div_left count hsize, List.drop_tail,
    List.drop_tail]

theorem leftover_nil : leftover size count [] = [] := by
  rw [leftover, List.drop_nil, List.drop_nil, List.headD_nil, List.drop_nil, List.flatten_nil,
    List.append_nil]

/-- Nothing is left of a last piece that is not longer than what is put over it. -/
theorem leftover_singleton {piece : Bytes} (hsize : 0 < size) (h : piece.length ≤ count) :
    leftover size count [piece] = [] := by
  by_cases hlt : count < size
  · rw [leftover_of_lt hlt, List.headD_cons, List.drop_eq_nil_of_le h, List.tail_cons,
      List.flatten_nil, List.append_nil]
  · obtain ⟨rest, rfl⟩ := Nat.exists_eq_add_of_le (Nat.not_lt.1 hlt)
    rw [leftover_add hsize, List.tail_cons, leftover_nil]

/-- Of the pieces that bytes are cut into, by another size, there are left all bytes from one on. -/
theorem leftover_chunks {size' : Nat} (hsize : 0 < size) :
    leftover size' count ((chunks size bytes).drop i)
      = bytes.drop ((i + count / size') * size + min (count % size') size) := by
  have hhead : ((chunks size bytes).drop (i + count / size')).headD []
      = (bytes.drop ((i + count / size') * size)).take size := by
    rw [List.headD_eq_head?_getD, List.head?_drop, getElem?_chunks hsize]
    unfold chunk?
    split
    · rfl
    · next hend =>
      rw [List.drop_eq_nil_of_le (Nat.not_lt.1 hend), List.take_nil]
      rfl
  rw [leftover, List.drop_drop, List.drop_drop, hhead, ← Nat.add_assoc, flatten_drop_chunks hsize,
    Nat.add_mul (i + count / size'), Nat.one_mul, ← List.drop_drop, ← List.drop_drop]
  generalize bytes.drop ((i + count / size') * size) = rest
  rcases Nat.le_total (count % size') size with hle | hle
  · rw [Nat.min_eq_left hle, List.drop_take]
    have hsplit := List.take_append_drop (size - count % size') (rest.drop (count % size'))
    rwa [List.drop_drop, Nat.add_sub_of_le hle] at hsplit
  · rw [Nat.min_eq_right hle, List.drop_eq_nil_of_le (by rw [List.length_take]; omega),
      List.nil_append]

theorem flatten_eq_headD_append (pieces : List Bytes) :
    pieces.flatten = pieces.headD [] ++ pieces.tail.flatten := by
  cases pieces with
  | nil => rfl
  | cons piece rest => rfl

/-- What comes of pieces when data is put over those of `after`, cut into chunks. The first chunk begins
with bytes that its piece keeps, and with zeros. -/
def overwritten (size : Nat) (before after : List Bytes) (retained zeroFill : Nat) (data : Bytes) :
    Bytes :=
  before.flatten ++ ((after.headD []).take retained ++ List.replicate zeroFill 0) ++ data
    ++ leftover size (retained + zeroFill + data.length) after

variable {before after : List Bytes} {retained zeroFill : Nat} {head rest : Bytes}

/-- Data that does not fill a chunk goes into one piece, of which the end is kept. -/
theorem overwritten_of_lt (h : retained + zeroFill + data.length < size) :
    overwritten size before after retained zeroFill data
      = before.flatten ++ ((after.headD []).take retained ++ List.replicate zeroFill 0) ++ data
        ++ ((after.headD []).drop (retained + zeroFill + data.length) ++ after.tail.flatten) := by
  rw [overwritten, leftover_of_lt h]

/-- Data that fills a chunk makes a piece with what this begins with, and the rest goes on behind it. -/
theorem overwritten_append (hsize : 0 < size)
    (hhead : head = (after.headD []).take retained ++ List.replicate zeroFill 0)
    (hfull : retained + zeroFill + data.length = size) :
    overwritten size before after retained zeroFill (data ++ rest)
      = overwritten size (before ++ [head ++ data]) after.tail 0 0 rest := by
  rw [overwritten, overwritten, ← hhead, List.length_append, ← Nat.add_assoc, hfull,
    leftover_add hsize, List.flatten_append, List.flatten_singleton, List.take_zero,
    List.replicate_zero]
  simp only [List.append_assoc, List.nil_append, Nat.zero_add]

end SegmentedFiles.Bytes
