/-! Object content: a sequence of bytes, with the few operations that segmented files need on it. -/

namespace SegmentedFiles

abbrev Payload := ByteArray

namespace Payload

def zeros (n : Nat) : Payload :=
  n.fold (fun _ _ bytes => bytes.push 0) (ByteArray.emptyWithCapacity n)

/-- Cut `bytes` down to `n` bytes, or extend them to `n` bytes with zeros. -/
def resize (bytes : Payload) (n : Nat) : Payload :=
  if n ≤ bytes.size then bytes.extract 0 n else bytes ++ zeros (n - bytes.size)

def ofText (text : String) : Payload := text.toUTF8

@[simp] theorem toList_data_zeros (n : Nat) : (zeros n).data.toList = List.replicate n 0 := by
  have fold_eq : ∀ (m : Nat) (b : ByteArray),
      (m.fold (fun _ _ bytes => bytes.push 0) b).data.toList
        = b.data.toList ++ List.replicate m 0 := by
    intro m
    induction m with
    | zero => simp
    | succ m ih =>
      intro b
      simp [Nat.fold_succ, ih, List.replicate_succ', ← List.append_assoc]
  rw [zeros, fold_eq]
  rfl

@[simp] theorem size_zeros (n : Nat) : (zeros n).size = n := by
  rw [← ByteArray.size_data, ← Array.length_toList, toList_data_zeros, List.length_replicate]

@[simp] theorem size_resize (bytes : Payload) (n : Nat) : (bytes.resize n).size = n := by
  unfold resize
  split
  · simp only [ByteArray.size_extract]; omega
  · simp only [ByteArray.size_append, size_zeros]; omega

end Payload

end SegmentedFiles
