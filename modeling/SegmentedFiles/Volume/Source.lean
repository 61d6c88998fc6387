import SegmentedFiles.Payload
import SegmentedFiles.Store.Error

/-! Data to be written. It comes in pieces and may break off. How it is divided does not matter to a
reader: each read takes as many bytes as it wants, or all that are left. -/

namespace SegmentedFiles

/-- Data that is still to be read. -/
structure Source where
  pieces : List Payload
  /-- How much of the first piece has been read. -/
  consumed : Nat
  /-- With what the reading fails after the last piece, if it does. -/
  failure : Option IoFailure

namespace Source

def ofPieces (pieces : List Payload) (failure : Option IoFailure) : Source := ⟨pieces, 0, failure⟩

def content (s : Source) : Payload :=
  (s.pieces.foldl (fun bytes piece => bytes ++ piece) ByteArray.empty).extract s.consumed
    (s.pieces.foldl (fun size piece => size + piece.size) 0)

/-- The number of bytes in pieces of whose first `consumed` bytes are gone. -/
def sizeFrom (consumed : Nat) : List Payload → Nat
  | [] => 0
  | piece :: rest => (piece.size - consumed) + sizeFrom 0 rest

def remaining (s : Source) : Nat := sizeFrom s.consumed s.pieces

/-- Up to `want` bytes from pieces of whose first `consumed` bytes are gone, and what is left. -/
def takePieces (want consumed : Nat) : List Payload → Payload × List Payload × Nat
  | [] => (ByteArray.empty, [], 0)
  | piece :: rest =>
    if want ≤ piece.size - consumed then
      (piece.extract consumed (consumed + want), piece :: rest, consumed + want)
    else
      let (more, left) := takePieces (want - (piece.size - consumed)) 0 rest
      (piece.extract consumed piece.size ++ more, left)

/-- Read `want` bytes, or all there are. Where fewer are there and the data breaks off, reading
fails. -/
def read (s : Source) (want : Nat) : Except IoFailure (Payload × Source) :=
  let (data, pieces, consumed) := takePieces want s.consumed s.pieces
  match s.failure with
  | some failure =>
    if data.size < want then .error failure else .ok (data, ⟨pieces, consumed, s.failure⟩)
  | none => .ok (data, ⟨pieces, consumed, s.failure⟩)

theorem size_takePieces (want consumed : Nat) (pieces : List Payload) :
    (takePieces want consumed pieces).1.size = min want (sizeFrom consumed pieces) := by
  induction pieces generalizing want consumed with
  | nil => simp [takePieces, sizeFrom]
  | cons piece rest ih =>
    simp only [takePieces, sizeFrom]
    split
    · simp only [ByteArray.size_extract]; omega
    · simp only [ByteArray.size_append, ByteArray.size_extract, ih]; omega

theorem sizeFrom_takePieces (want consumed : Nat) (pieces : List Payload) :
    sizeFrom (takePieces want consumed pieces).2.2 (takePieces want consumed pieces).2.1
      = sizeFrom consumed pieces - want := by
  induction pieces generalizing want consumed with
  | nil => simp [takePieces, sizeFrom]
  | cons piece rest ih =>
    simp only [takePieces, sizeFrom]
    split
    · simp only [sizeFrom]; omega
    · simp only [ih]; omega

/-- A read takes the bytes wanted, as far as there are any. -/
theorem size_of_read {s rest : Source} {want : Nat} {data : Payload}
    (h : s.read want = .ok (data, rest)) : data.size = min want s.remaining := by
  unfold read at h
  split at h
  next d p c hp =>
    have hd : data = d := by
      split at h
      · split at h <;> simp_all
      · simp_all
    rw [hd, remaining, ← size_takePieces, hp]

theorem remaining_of_read {s rest : Source} {want : Nat} {data : Payload}
    (h : s.read want = .ok (data, rest)) : rest.remaining = s.remaining - want := by
  unfold read at h
  split at h
  next d p c hp =>
    have hr : rest = ⟨p, c, s.failure⟩ := by
      split at h
      · split at h <;> simp_all
      · simp_all
    have := sizeFrom_takePieces want s.consumed s.pieces
    rw [hp] at this
    rw [hr, remaining, remaining, ← this]

end Source

end SegmentedFiles
