import SegmentedFiles.Proofs.Bytes.Splice
import SegmentedFiles.Volume.Source

/-! # What is read from a source

`Source.bytes` is all that is still to be read, as one list. A read takes bytes off its front
(`bytes_of_read`) and fails only where fewer are left than wanted and the data breaks off
(`read_error`). How the data is divided into pieces is seen in none of this. -/

namespace SegmentedFiles.Source

/-- The bytes of pieces of whose first `consumed` bytes are gone. -/
def bytesFrom (consumed : Nat) : List Payload → Bytes
  | [] => []
  | piece :: rest => piece.bytes.drop consumed ++ bytesFrom 0 rest

/-- The bytes that are still to be read. -/
def bytes (s : Source) : Bytes := bytesFrom s.consumed s.pieces

variable {s rest : Source} {want : Nat} {data : Payload}

theorem takePieces_bytes (want consumed : Nat) (pieces : List Payload) :
    (takePieces want consumed pieces).1.bytes = (bytesFrom consumed pieces).take want ∧
      bytesFrom (takePieces want consumed pieces).2.2 (takePieces want consumed pieces).2.1
        = (bytesFrom consumed pieces).drop want := by
  induction pieces generalizing want consumed with
  | nil => simp [takePieces, bytesFrom]
  | cons piece rest ih =>
    have hlength : (piece.bytes.drop consumed).length = piece.size - consumed := by
      rw [List.length_drop, Payload.length_bytes]
    simp only [takePieces, bytesFrom]
    split
    · next hle =>
      rw [← hlength] at hle
      constructor
      · rw [Payload.bytes_extract, Nat.add_sub_cancel_left, List.take_append_of_le_length hle]
      · simp only [bytesFrom]
        rw [List.drop_append_of_le_length hle, List.drop_drop]
    · next hlt =>
      obtain ⟨htake, hdrop⟩ := ih (want - (piece.size - consumed)) 0
      have hall : (piece.bytes.drop consumed).length ≤ want := by omega
      constructor
      · rw [Payload.bytes_append, htake, Payload.bytes_extract, List.take_append, hlength,
          List.take_of_length_le hall, List.take_of_length_le (Nat.le_of_eq hlength)]
      · rw [hdrop, List.drop_append, hlength, List.drop_of_length_le hall, List.nil_append]

/-- A read takes the bytes wanted off the front, as far as there are any, and breaks off as before. -/
theorem bytes_of_read (h : s.read want = .ok (data, rest)) :
    data.bytes = s.bytes.take want ∧ rest.bytes = s.bytes.drop want ∧ rest.failure = s.failure := by
  have htake := takePieces_bytes want s.consumed s.pieces
  unfold read at h
  split at h
  next d p c hp =>
  rw [hp] at htake
  have hresult : d = data ∧ (⟨p, c, s.failure⟩ : Source) = rest := by
    split at h
    · split at h
      · cases h
      · simpa using h
    · next hnone => simpa [hnone] using h
  obtain ⟨rfl, rfl⟩ := hresult
  exact ⟨htake.1, htake.2, rfl⟩

/-- A read fails where the data breaks off before as many bytes as are wanted. -/
theorem read_error {failure : IoFailure} (h : s.read want = .error failure) :
    s.failure = some failure ∧ s.bytes.length < want := by
  have htake := (takePieces_bytes want s.consumed s.pieces).1
  unfold read at h
  split at h
  next d p c hp =>
  rw [hp] at htake
  split at h
  · next f hf =>
    split at h
    · next hlt =>
      refine ⟨by rw [hf, Except.error.inj h], ?_⟩
      rw [← Payload.length_bytes, htake, List.length_take] at hlt
      exact Nat.lt_of_not_le fun hle => absurd hlt (by rw [bytes] at hle; omega)
    · cases h
  · cases h

/-- A read that wants more than there is finds where the data breaks off. -/
theorem failure_of_read_short (h : s.read want = .ok (data, rest)) (hlt : data.size < want) :
    s.failure = none := by
  unfold read at h
  split at h
  next d p c hp =>
  split at h
  · split at h
    · cases h
    · next hle =>
      have hd : d = data := by
        have hpair := Except.ok.inj h
        exact (Prod.mk.inj hpair).1
      exact absurd hlt (hd ▸ hle)
  · assumption

/-- A read that wants bytes takes all that are left, and the data does not break off, or it takes as many
as are wanted. -/
theorem cases_of_read (hread : s.read want = .ok (data, rest)) :
    data.size < want ∧ s.failure = none ∧ data.bytes = s.bytes ∨
      data.size = want ∧ rest.failure = s.failure ∧ s.bytes = data.bytes ++ rest.bytes := by
  obtain ⟨hdata, hrest, hfailure⟩ := bytes_of_read hread
  have hsize : data.size = min want s.bytes.length := by
    rw [← Payload.length_bytes, hdata, List.length_take]
  rcases Nat.lt_or_ge data.size want with hshort | hfull
  · refine .inl ⟨hshort, failure_of_read_short hread hshort, ?_⟩
    rw [hdata, List.take_of_length_le (by omega)]
  · refine .inr ⟨by omega, hfailure, ?_⟩
    rw [hdata, hrest, List.take_append_drop]

/-- What is read, unless it is the last, leaves less than there was. -/
theorem remaining_lt_of_read (hread : s.read want = .ok (data, rest))
    (hmore : ¬(decide (data.size < want) || want == 0) = true) : rest.remaining < s.remaining := by
  have hsize := size_of_read hread
  have hrest := remaining_of_read hread
  simp only [Bool.or_eq_true, decide_eq_true_eq, beq_iff_eq, not_or] at hmore
  omega

/-- The data of a new source is that of its pieces one after another. -/
theorem bytes_ofPieces (pieces : List Payload) (failure : Option IoFailure) :
    (ofPieces pieces failure).bytes = pieces.flatMap Payload.bytes := by
  have hfrom : bytesFrom 0 pieces = pieces.flatMap Payload.bytes := by
    induction pieces with
    | nil => rfl
    | cons piece rest ih => rw [bytesFrom, ih, List.drop_zero, List.flatMap_cons]
  exact hfrom

end SegmentedFiles.Source
