import SegmentedFiles.Http.Query
import SegmentedFiles.Proofs.Http.Percent
import SegmentedFiles.Proofs.Text.Pieces

/-! # Parameters are read back from a query

A part of a parameter is written with plus signs for blanks and escapes for all that is not plain, so
neither an ampersand nor an equals sign occurs in it, and a plus sign means a blank only
(`decodePart_encodePart`). So the parameters that are written into a query are read back from it, whatever
their names and values are (`parameters_encode`), and those that are added behind others come behind these
(`parameters_append`). -/

namespace SegmentedFiles.Query

variable {b : UInt8} {c : Char}

/-- What stands for a byte in a written part. -/
def written (b : UInt8) : List Char :=
  if b = 0x20 then ['+'] else Percent.written (fun b => !isPlain b) b

/-- Plain bytes are ASCII. -/
theorem isPlain_lt (h : isPlain b = true) : b < 0x80 := by
  have hall : ∀ n < 256, isPlain (UInt8.ofNat n) = true → UInt8.ofNat n < 0x80 := by decide +kernel
  have hb := hall b.toNat b.toNat_lt
  rw [UInt8.ofNat_toNat] at hb
  exact hb h

theorem toList_encodePart (part : String) :
    (encodePart part).toList = (Text.utf8 part).flatMap written := by
  rw [encodePart, String.toList_ofList]
  refine List.flatMap_congr fun b _ => ?_
  unfold written Percent.written
  cases hplain : isPlain b with
  | true =>
    have hlt : ¬0x80 ≤ b := UInt8.not_le.2 (isPlain_lt hplain)
    simp only [hlt, hplain, decide_false, Bool.not_true, Bool.or_self, Bool.false_eq_true, if_true, if_false]
  | false => simp only [hplain, Bool.not_false, Bool.or_true, Bool.false_eq_true, if_true, if_false]

theorem mem_written (h : c ∈ written b) : c = '+' ∨ c ∈ Percent.inEscapes ∨
    c = Char.ofNat b.toNat ∧ isPlain b = true ∧ b < 0x80 := by
  unfold written at h
  split at h
  · exact .inl (List.mem_singleton.1 h)
  · rcases Percent.mem_written h with hescape | ⟨hself, hlt, hplain⟩
    · exact .inr (.inl hescape)
    · exact .inr (.inr ⟨hself, by simpa using hplain, hlt⟩)

theorem ascii_written : ∀ c ∈ written b, c.toNat < 128 := by
  intro c hc
  unfold written at hc
  split at hc
  · rw [List.mem_singleton.1 hc]
    decide
  · exact Percent.ascii_written c hc

/-- A character that is escaped does not occur in a written part. -/
theorem not_mem_encodePart (hplus : c ≠ '+') (hescapes : c ∉ Percent.inEscapes)
    (hescaped : isPlain (UInt8.ofNat c.toNat) = false) (part : String) : c ∉ (encodePart part).toList := by
  rw [toList_encodePart, List.mem_flatMap]
  rintro ⟨b, -, hc⟩
  rcases mem_written hc with hc | hc | ⟨rfl, hplain, hlt⟩
  · exact hplus hc
  · exact hescapes hc
  · rw [Percent.toNat_ofNat_toNat hlt, UInt8.ofNat_toNat, hplain] at hescaped
    cases hescaped

/-! ## Reading back -/

/-- A plus sign is read as a blank. -/
def readPlus (b : UInt8) : UInt8 := if b = 0x2b then 0x20 else b

/-- Each byte is read back from what stands for it, whatever follows. -/
theorem decode_written_append (b : UInt8) (rest : List UInt8) :
    Percent.decode ((written b).map (fun c => readPlus (UInt8.ofNat c.toNat)) ++ rest)
      = b :: Percent.decode rest := by
  unfold written
  split
  · next hblank =>
    rw [hblank, List.map_singleton, List.singleton_append]
    exact Percent.decode_cons_of_ne (by decide) rest
  · have hkept : ∀ c ∈ Percent.written (fun b => !isPlain b) b,
        readPlus (UInt8.ofNat c.toNat) = UInt8.ofNat c.toNat := by
      intro c hc
      refine if_neg fun hplus => ?_
      rcases Percent.mem_written hc with hescape | ⟨rfl, hlt, hplain⟩
      · have hnone : ∀ c ∈ Percent.inEscapes, UInt8.ofNat c.toNat ≠ 0x2b := by
          simp [Percent.inEscapes]
        exact hnone c hescape hplus
      · rw [Percent.toNat_ofNat_toNat hlt, UInt8.ofNat_toNat] at hplus
        rw [hplus] at hplain
        exact absurd hplain (by decide)
    rw [List.map_congr_left hkept]
    exact Percent.decode_written_append (by decide) b rest

/-- A name or value is read back from its written form. -/
theorem decodePart_encodePart (part : String) : decodePart (encodePart part) = part := by
  have hascii : ∀ c ∈ (Text.utf8 part).flatMap written, c.toNat < 128 := by
    intro c hc
    obtain ⟨b, -, hc⟩ := List.mem_flatMap.1 hc
    exact ascii_written c hc
  have hread : ∀ bytes : List UInt8, Percent.decode
      ((bytes.flatMap written).map fun c => readPlus (UInt8.ofNat c.toNat)) = bytes := by
    intro bytes
    induction bytes with
    | nil => rfl
    | cons b bytes ih => rw [List.flatMap_cons, List.map_append, decode_written_append, ih]
  have hbytes : (encodePart part).toUTF8.data.toList
      = ((Text.utf8 part).flatMap written).map fun c => UInt8.ofNat c.toNat := by
    rw [← Text.utf8_of_ascii hascii, ← toList_encodePart, String.ofList_toList]
    rfl
  rw [decodePart, hbytes, List.map_map]
  exact (congrArg Utf8.decode (hread _)).trans (Utf8.decode_utf8 part)

/-! ## Parameters -/

theorem parameters_empty : parameters "" = [] := by decide

/-- Parameters behind others. -/
theorem parameters_append (query added : String) :
    parameters (query ++ "&" ++ added) = parameters query ++ parameters added := by
  have hsplit : Text.splitAt '&' (query ++ "&" ++ added) = Text.splitAt '&' query ++ Text.splitAt '&' added :=
    Text.splitAt_append '&' query added
  rw [parameters, hsplit, List.filter_append, List.map_append]
  rfl

/-- A parameter in its written form. -/
def pair (parameter : String × String) : String := encodePart parameter.1 ++ "=" ++ encodePart parameter.2

theorem toList_pair (parameter : String × String) : (pair parameter).toList
    = (encodePart parameter.1).toList ++ '=' :: (encodePart parameter.2).toList := by
  simp [pair]

theorem not_mem_pair (parameter : String × String) : '&' ∉ (pair parameter).toList := by
  have hnot := not_mem_encodePart (by decide : '&' ≠ '+') (by decide) (by decide)
  rw [toList_pair, List.mem_append, List.mem_cons]
  rintro (h | h | h)
  · exact hnot _ h
  · exact absurd h (by decide)
  · exact hnot _ h

theorem isEmpty_pair (parameter : String × String) : (pair parameter).isEmpty = false := by
  rw [String.isEmpty_eq_false_iff]
  intro hempty
  have hnil := congrArg String.toList hempty
  rw [toList_pair] at hnil
  exact List.append_ne_nil_of_right_ne_nil _ (List.cons_ne_nil _ _) hnil

theorem splitFirst?_pair (parameter : String × String) :
    Text.splitFirst? '=' (pair parameter) = some (encodePart parameter.1, encodePart parameter.2) := by
  refine Text.splitFirst?_eq_some_iff.2 ⟨toList_pair parameter, ?_⟩
  exact not_mem_encodePart (by decide) (by decide) (by decide) _

/-- Parameters are read back from the query into which they are written. -/
theorem parameters_encode (written : List (String × String)) : parameters (encode written) = written := by
  by_cases hnone : written = []
  · rw [hnone]
    exact parameters_empty
  have hsplit : Text.splitAt '&' (encode written) = written.map pair := by
    refine Text.splitAt_intercalate (fun h => hnone (List.map_eq_nil_iff.1 h)) ?_
    intro piece hpiece
    obtain ⟨parameter, -, rfl⟩ := List.mem_map.1 hpiece
    exact not_mem_pair parameter
  have hsome : (written.map pair).filter (fun piece => !piece.isEmpty) = written.map pair := by
    refine List.filter_eq_self.2 fun piece hpiece => ?_
    obtain ⟨parameter, -, rfl⟩ := List.mem_map.1 hpiece
    rw [isEmpty_pair, Bool.not_false]
  rw [parameters, hsplit, hsome, List.map_map]
  refine (List.map_congr_left fun parameter _ => ?_).trans (List.map_id _)
  simp only [Function.comp_apply, splitFirst?_pair, Option.getD_some, decodePart_encodePart]
  rfl

end SegmentedFiles.Query
