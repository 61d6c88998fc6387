import Mathlib.Data.String.Basic
import Mathlib.Tactic.IntervalCases
import SegmentedFiles.Text.Utf8

/-! # The UTF-8 bytes of a text

Texts are compared by code points. This is the order of their UTF-8 bytes as well
(`utf8_lt_iff`), because the first byte at which two characters differ says which of them comes
first. Read as UTF-8 that may be damaged, the bytes are the text again (`Utf8.decode_utf8`). -/

namespace SegmentedFiles.Text

variable {s t : String} {c d : Char}

/-- The bytes of a text. -/
def utf8 (s : String) : List UInt8 := s.toUTF8.data.toList

theorem utf8_eq (s : String) : utf8 s = s.toList.flatMap String.utf8EncodeChar := by
  conv => lhs; rw [← String.ofList_toList (s := s)]
  rw [utf8, String.toUTF8_eq_toByteArray, String.toByteArray_ofList, List.utf8Encode]
  simp

/-- The bytes of an ASCII text are its characters. -/
theorem utf8_of_ascii {cs : List Char} (h : ∀ c ∈ cs, c.toNat < 128) :
    utf8 (String.ofList cs) = cs.map fun c => UInt8.ofNat c.toNat := by
  rw [utf8_eq, String.toList_ofList, List.map_eq_flatMap]
  refine List.flatMap_congr fun c hc => ?_
  have hc : c.val.toNat ≤ 127 := Nat.le_of_lt_succ (h c hc)
  rw [String.utf8EncodeChar, if_pos hc]
  rfl

theorem ofNat_lt_iff {m n : Nat} (hm : m < 256) (hn : n < 256) :
    UInt8.ofNat m < UInt8.ofNat n ↔ m < n := by
  rw [UInt8.lt_iff_toNat_lt, UInt8.toNat_ofNat', UInt8.toNat_ofNat', Nat.mod_eq_of_lt hm,
    Nat.mod_eq_of_lt hn]

theorem ofNat_inj_iff {m n : Nat} (hm : m < 256) (hn : n < 256) :
    UInt8.ofNat m = UInt8.ofNat n ↔ m = n := by
  rw [← UInt8.toNat_inj, UInt8.toNat_ofNat', UInt8.toNat_ofNat', Nat.mod_eq_of_lt hm,
    Nat.mod_eq_of_lt hn]

theorem toNat_val_lt (c : Char) : c.val.toNat < 0x110000 := by
  have hvalid := c.valid
  simp only [UInt32.isValidChar, Nat.isValidChar] at hvalid
  omega

/-- Of two characters the bytes of the lesser come first, whatever follows them. -/
theorem utf8EncodeChar_append_lt (h : c < d) (xs ys : List UInt8) :
    String.utf8EncodeChar c ++ xs < String.utf8EncodeChar d ++ ys := by
  have hlt : c.val.toNat < d.val.toNat := h
  have hmax := toNat_val_lt d
  unfold String.utf8EncodeChar
  generalize c.val.toNat = m at hlt
  generalize d.val.toNat = n at hlt hmax
  -- To the base 64 the two first differ in one of four digits.
  have hdigits : m / 262144 < n / 262144 ∨ m / 262144 = n / 262144 ∧
      (m / 4096 < n / 4096 ∨ m / 4096 = n / 4096 ∧ (m / 64 < n / 64 ∨ m / 64 = n / 64)) := by
    omega
  dsimp only
  split_ifs
  all_goals
    simp (disch := omega) only [List.cons_append, List.nil_append, List.cons_lt_cons_iff,
      ofNat_lt_iff, ofNat_inj_iff]
    rcases hdigits with hfirst | ⟨hfirst, hsecond | ⟨hsecond, hthird | hthird⟩⟩ <;> omega

theorem flatMap_utf8EncodeChar_lt {cs ds : List Char} (h : cs < ds) :
    cs.flatMap String.utf8EncodeChar < ds.flatMap String.utf8EncodeChar := by
  induction cs generalizing ds with
  | nil =>
    cases ds with
    | nil => exact absurd h (List.lt_irrefl [])
    | cons d ds =>
      cases hbytes : (d :: ds).flatMap String.utf8EncodeChar with
      | nil =>
        have hnone := List.flatMap_eq_nil_iff.1 hbytes d List.mem_cons_self
        exact absurd hnone String.utf8EncodeChar_ne_nil
      | cons b bytes => exact List.nil_lt_cons b bytes
  | cons c cs ih =>
    cases ds with
    | nil => exact absurd h (List.not_lt_nil _)
    | cons d ds =>
      rw [List.flatMap_cons, List.flatMap_cons]
      rcases List.cons_lt_cons_iff.1 h with hlt | ⟨rfl, hlt⟩
      · exact utf8EncodeChar_append_lt hlt _ _
      · exact List.append_left_lt (ih hlt)

theorem utf8_lt_of_lt (h : s < t) : utf8 s < utf8 t := by
  rw [utf8_eq, utf8_eq]
  exact flatMap_utf8EncodeChar_lt (String.lt_iff.1 h)

/-- The order of texts is that of their bytes. -/
theorem utf8_lt_iff : utf8 s < utf8 t ↔ s < t := by
  refine ⟨fun h => ?_, utf8_lt_of_lt⟩
  rcases Std.lt_trichotomy s t with hlt | rfl | hgt
  · exact hlt
  · exact absurd h (List.lt_irrefl _)
  · exact absurd (utf8_lt_of_lt hgt) (List.lt_asymm h)

end SegmentedFiles.Text

/-! ## Reading back -/

namespace SegmentedFiles.Utf8

variable {k bits more : Nat} {low high : UInt8} {done : List Char} {rest : List UInt8}

/-- A byte that goes on with a character, or ends it. -/
theorem read_inside (hlow : low.toNat ≤ k + 128) (hhigh : k + 128 ≤ high.toNat) (hk : k < 64) :
    read (.inside bits more low high) done (UInt8.ofNat (k + 128) :: rest)
      = if more = 1 then read .between (Char.ofNat (64 * bits + k) :: done) rest
        else read (.inside (64 * bits + k) (more - 1) 0x80 0xbf) done rest := by
  have hsize : UInt8.size = 256 := rfl
  have hn : (UInt8.ofNat (k + 128)).toNat = k + 128 := UInt8.toNat_ofNat_of_lt' (by omega)
  have hin : (low ≤ UInt8.ofNat (k + 128) && UInt8.ofNat (k + 128) ≤ high) = true := by
    rw [Bool.and_eq_true, decide_eq_true_eq, decide_eq_true_eq, UInt8.le_iff_toNat_le,
      UInt8.le_iff_toNat_le, hn]
    exact ⟨hlow, hhigh⟩
  have hbits : (k + 128) % 64 = k := by omega
  rw [read, step, if_pos hin, hn, hbits]
  dsimp only
  split <;> rfl

theorem first_two (hlow : 2 ≤ k) (hk : k < 32) :
    first (UInt8.ofNat (k + 192)) = ([], .inside k 1 0x80 0xbf) := by
  interval_cases k <;> rfl

/-- What may follow the first of three bytes: nothing that could be written with two, and no surrogate. -/
theorem first_three (hk : k < 16) : first (UInt8.ofNat (k + 224))
    = ([], .inside k 2 (if k = 0 then 0xa0 else 0x80) (if k = 13 then 0x9f else 0xbf)) := by
  interval_cases k <;> rfl

theorem first_four (hk : k < 5) : first (UInt8.ofNat (k + 240))
    = ([], .inside k 3 (if k = 0 then 0x90 else 0x80) (if k = 4 then 0x8f else 0xbf)) := by
  interval_cases k <;> rfl

/-- The bytes of a character are read as this character. -/
theorem read_utf8EncodeChar (c : Char) (done : List Char) (rest : List UInt8) :
    read .between done (String.utf8EncodeChar c ++ rest) = read .between (c :: done) rest := by
  have hmax := Text.toNat_val_lt c
  have hvalid : c.val.toNat < 0xd800 ∨ 0xdfff < c.val.toNat := c.valid.imp_right And.left
  have hc : Char.ofNat c.val.toNat = c := Char.ofNat_toNat c
  have hsize : UInt8.size = 256 := rfl
  have hlow : (0x80 : UInt8).toNat = 128 := rfl
  have hhigh : (0xbf : UInt8).toNat = 191 := rfl
  unfold String.utf8EncodeChar
  generalize c.val.toNat = v at *
  dsimp only
  split_ifs with h1 h2 h3
  · rw [List.singleton_append, read, step, first, UInt8.toNat_ofNat_of_lt' (by omega), if_pos (by omega), hc]
    rfl
  · have hbits : 64 * (v / 64 % 32) + v % 64 = v := by omega
    rw [List.cons_append, List.singleton_append, read, step, first_two (by omega) (by omega)]
    dsimp only [List.reverse_nil, List.nil_append]
    rw [read_inside (by omega) (by omega) (by omega), if_pos rfl, hbits, hc]
  · have hbits : 64 * (64 * (v / 4096 % 16) + v / 64 % 64) + v % 64 = v := by omega
    rw [List.cons_append, List.cons_append, List.singleton_append, read, step, first_three (by omega)]
    dsimp only [List.reverse_nil, List.nil_append]
    rw [read_inside ?_ ?_ (by omega), if_neg (by decide), read_inside (by omega) (by omega) (by omega),
      if_pos rfl, hbits, hc]
    · split
      · change 160 ≤ v / 64 % 64 + 128
        omega
      · omega
    · split
      · change v / 64 % 64 + 128 ≤ 159
        omega
      · omega
  · have hbits : 64 * (64 * (64 * (v / 262144 % 8) + v / 4096 % 64) + v / 64 % 64) + v % 64 = v := by omega
    rw [List.cons_append, List.cons_append, List.cons_append, List.singleton_append, read, step,
      first_four (by omega)]
    dsimp only [List.reverse_nil, List.nil_append]
    rw [read_inside ?_ ?_ (by omega), if_neg (by decide), read_inside (by omega) (by omega) (by omega),
      if_neg (by decide), read_inside (by omega) (by omega) (by omega), if_pos rfl, hbits, hc]
    · split
      · change 144 ≤ v / 4096 % 64 + 128
        omega
      · omega
    · split
      · change v / 4096 % 64 + 128 ≤ 143
        omega
      · omega

theorem read_utf8 (cs done : List Char) :
    read .between done (cs.flatMap String.utf8EncodeChar) = done.reverse ++ cs := by
  induction cs generalizing done with
  | nil => exact (List.append_nil _).symm
  | cons c cs ih => rw [List.flatMap_cons, read_utf8EncodeChar, ih, List.reverse_cons, List.append_assoc,
      List.singleton_append]

/-- A text is read back from its bytes. -/
theorem decode_utf8 (s : String) : decode (Text.utf8 s) = s := by
  rw [decode, Text.utf8_eq, read_utf8, List.reverse_nil, List.nil_append, String.ofList_toList]

end SegmentedFiles.Utf8
