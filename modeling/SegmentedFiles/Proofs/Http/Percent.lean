import SegmentedFiles.Http.Percent
import SegmentedFiles.Proofs.Text.Utf8

/-! # Percent-encoded text is read back

The encoding of a text is ASCII, and each byte of the text stands in it by itself or as an escape. So the
text is read back from it wherever a percent sign is itself escaped (`decodeText?_encode`), and a character
that is escaped does not occur in it (`not_mem_encode`). -/

namespace SegmentedFiles.Percent

variable {isUnsafe : UInt8 → Bool} {b : UInt8} {c : Char} {text : String}

/-- What stands for a byte in an encoded text. -/
def written (isUnsafe : UInt8 → Bool) (b : UInt8) : List Char :=
  if 0x80 ≤ b || isUnsafe b then escape b else [Char.ofNat b.toNat]

theorem toList_encode (isUnsafe : UInt8 → Bool) (text : String) :
    (encode isUnsafe text).toList = (Text.utf8 text).flatMap (written isUnsafe) :=
  String.toList_ofList

/-- The characters that escapes are made of. -/
def inEscapes : List Char :=
  ['%', '0', '1', '2', '3', '4', '5', '6', '7', '8', '9', 'A', 'B', 'C', 'D', 'E', 'F']

theorem mem_inEscapes_of_digit : ∀ n < 16, (Hex.digit n).toUpper ∈ inEscapes := by decide

theorem value?_toUpper_digit : ∀ n < 16,
    Hex.value? (Char.ofNat (UInt8.ofNat (Hex.digit n).toUpper.toNat).toNat) = some n := by decide

theorem escape_eq (b : UInt8) :
    escape b = ['%', (Hex.digit (b.toNat / 16)).toUpper, (Hex.digit (b.toNat % 16)).toUpper] := rfl

theorem digits_lt (b : UInt8) : b.toNat / 16 < 16 ∧ b.toNat % 16 < 16 := by
  have hb := b.toNat_lt
  omega

/-- A character of an encoded text is one of an escape, or it stands for itself. -/
theorem mem_written (h : c ∈ written isUnsafe b) :
    c ∈ inEscapes ∨ c = Char.ofNat b.toNat ∧ b < 0x80 ∧ isUnsafe b = false := by
  unfold written at h
  split at h
  · rw [escape_eq] at h
    simp only [List.mem_cons, List.not_mem_nil, or_false] at h
    rcases h with rfl | rfl | rfl
    · exact .inl (by decide)
    · exact .inl (mem_inEscapes_of_digit _ (digits_lt b).1)
    · exact .inl (mem_inEscapes_of_digit _ (digits_lt b).2)
  · next hself =>
    rw [Bool.or_eq_true, decide_eq_true_eq, not_or, UInt8.not_le, Bool.not_eq_true] at hself
    exact .inr ⟨List.mem_singleton.1 h, hself⟩

theorem toNat_ofNat_toNat (hb : b < 0x80) : (Char.ofNat b.toNat).toNat = b.toNat := by
  have hlt : b.toNat < 128 := UInt8.lt_iff_toNat_lt.1 hb
  have hvalid : b.toNat.isValidChar := .inl (by omega)
  rw [Char.ofNat, dif_pos hvalid]
  rfl

theorem ascii_written : ∀ c ∈ written isUnsafe b, c.toNat < 128 := by
  intro c hc
  rcases mem_written hc with hescape | ⟨rfl, hb, -⟩
  · have hall : ∀ c ∈ inEscapes, c.toNat < 128 := by simp [inEscapes]
    exact hall c hescape
  · rw [toNat_ofNat_toNat hb]
    exact UInt8.lt_iff_toNat_lt.1 hb

/-- A character that is escaped does not occur in an encoded text, unless escapes are made of it. -/
theorem not_mem_encode (hescapes : c ∉ inEscapes) (hescaped : isUnsafe (UInt8.ofNat c.toNat) = true) :
    c ∉ (encode isUnsafe text).toList := by
  rw [toList_encode, List.mem_flatMap]
  intro h
  obtain ⟨b, -, hc⟩ := h
  rcases mem_written hc with hescape | ⟨rfl, hb, hsafe⟩
  · exact hescapes hescape
  · rw [toNat_ofNat_toNat hb, UInt8.ofNat_toNat, hsafe] at hescaped
    cases hescaped

/-! ## Reading back -/

theorem decode_cons_of_ne (hb : b ≠ 0x25) (rest : List UInt8) :
    decode (b :: rest) = b :: decode rest := by
  rw [decode]
  intro first second behind h
  exact absurd h hb

/-- Each byte is read back from what stands for it, whatever follows. -/
theorem decode_written_append (hpercent : isUnsafe 0x25 = true) (b : UInt8) (rest : List UInt8) :
    decode ((written isUnsafe b).map (fun c => UInt8.ofNat c.toNat) ++ rest) = b :: decode rest := by
  have hb := b.toNat_lt
  unfold written
  split
  · have hhigh := value?_toUpper_digit _ (digits_lt b).1
    have hlow := value?_toUpper_digit _ (digits_lt b).2
    have hpair : UInt8.ofNat (16 * (b.toNat / 16) + b.toNat % 16) = b := by
      rw [Nat.div_add_mod, UInt8.ofNat_toNat]
    have hsign : UInt8.ofNat '%'.toNat = 0x25 := by decide
    rw [escape_eq, List.map_cons, List.map_cons, List.map_cons, List.map_nil, hsign]
    simp only [List.cons_append, List.nil_append, decode, hhigh, hlow, hpair]
  · next hself =>
    rw [Bool.or_eq_true, decide_eq_true_eq, not_or, UInt8.not_le, Bool.not_eq_true] at hself
    have hne : b ≠ 0x25 := by
      rintro rfl
      rw [hpercent] at hself
      cases hself.2
    rw [List.map_singleton, toNat_ofNat_toNat hself.1, UInt8.ofNat_toNat, List.singleton_append,
      decode_cons_of_ne hne]

theorem decode_utf8_encode (hpercent : isUnsafe 0x25 = true) (text : String) :
    decode (Text.utf8 (encode isUnsafe text)) = Text.utf8 text := by
  have hbytes : ∀ bytes : List UInt8,
      decode ((bytes.flatMap (written isUnsafe)).map fun c => UInt8.ofNat c.toNat) = bytes := by
    intro bytes
    induction bytes with
    | nil => rfl
    | cons b bytes ih =>
      rw [List.flatMap_cons, List.map_append, decode_written_append hpercent, ih]
  have hascii : ∀ c ∈ (Text.utf8 text).flatMap (written isUnsafe), c.toNat < 128 := by
    intro c hc
    obtain ⟨b, -, hc⟩ := List.mem_flatMap.1 hc
    exact ascii_written c hc
  rw [← String.ofList_toList (s := encode isUnsafe text), toList_encode, Text.utf8_of_ascii hascii,
    hbytes]

/-- A text is read back from its encoding, if percent signs are escaped. -/
theorem decodeText?_encode (hpercent : isUnsafe 0x25 = true) (text : String) :
    decodeText? (encode isUnsafe text) = some text := by
  have hbytes := decode_utf8_encode hpercent text
  have harray : (⟨(decode (encode isUnsafe text).toUTF8.data.toList).toArray⟩ : ByteArray)
      = text.toUTF8 := by
    refine ByteArray.ext (Array.toList_inj.1 ?_)
    exact hbytes
  rw [decodeText?, harray, String.fromUTF8?, String.toUTF8_eq_toByteArray, dif_pos text.isValidUTF8]
  rfl

theorem mapM_decodeText?_encode (hpercent : isUnsafe 0x25 = true) (texts : List String) :
    (texts.map (encode isUnsafe)).mapM decodeText? = some texts := by
  induction texts with
  | nil => rfl
  | cons text texts ih =>
    rw [List.map_cons, List.mapM_cons, decodeText?_encode hpercent, ih]
    rfl

theorem encode_ne_empty (hpercent : isUnsafe 0x25 = true) (htext : text ≠ "") :
    encode isUnsafe text ≠ "" := by
  intro h
  have hread := decodeText?_encode hpercent text
  rw [h] at hread
  exact htext (Option.some.inj hread).symm

end SegmentedFiles.Percent
