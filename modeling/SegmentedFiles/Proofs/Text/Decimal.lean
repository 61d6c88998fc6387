import SegmentedFiles.Text.Decimal

/-! # Numbers written with a fixed number of digits

Among texts of equally many digits the order of texts is the order of the numbers (`value_lt_value_iff`),
so a number has one written form of a width, and reading it gives the number back (`value_digits`,
`digits_value`). -/

namespace SegmentedFiles.Decimal

/-- The first number that needs more than `width` digits. -/
def bound : Nat → Nat
  | 0 => 1
  | width + 1 => 10 * bound width

theorem bound_eq (width : Nat) : bound width = Nat.pow 10 width := by
  induction width with
  | zero => rfl
  | succ width ih =>
    rw [bound, ih, Nat.mul_comm]
    rfl

/-- The number that a digit stands for. -/
def digit (c : Char) : Nat := c.toNat - '0'.toNat

theorem digit_lt {c : Char} (h : c.isDigit = true) : digit c < 10 := by
  simp only [Char.isDigit, Bool.and_eq_true, decide_eq_true_eq, ge_iff_le, UInt32.le_iff_toNat_le]
    at h
  have hc : c.toNat = c.val.toNat := rfl
  simp only [digit, hc]
  have h9 : ('9' : Char).val.toNat = 57 := rfl
  have h0 : ('0' : Char).toNat = 48 := rfl
  omega

theorem digit_lt_digit_iff {c d : Char} (hc : c.isDigit = true) (hd : d.isDigit = true) :
    digit c < digit d ↔ c < d := by
  simp only [Char.isDigit, Bool.and_eq_true, decide_eq_true_eq, ge_iff_le, UInt32.le_iff_toNat_le]
    at hc hd
  rw [Char.lt_def, UInt32.lt_iff_toNat_lt]
  have h0 : ('0' : Char).val.toNat = 48 := rfl
  have h0' : ('0' : Char).toNat = 48 := rfl
  have hct : c.toNat = c.val.toNat := rfl
  have hdt : d.toNat = d.val.toNat := rfl
  simp only [digit, hct, hdt]
  omega

theorem digit_inj {c d : Char} (hc : c.isDigit = true) (hd : d.isDigit = true)
    (h : digit c = digit d) : c = d := by
  have hcd := digit_lt_digit_iff hc hd
  have hdc := digit_lt_digit_iff hd hc
  have : ¬c < d := fun hlt => by have := hcd.2 hlt; omega
  have : ¬d < c := fun hlt => by have := hdc.2 hlt; omega
  exact Char.le_antisymm (Char.not_lt.1 ‹_›) (Char.not_lt.1 ‹_›)

theorem value_cons (c : Char) (cs : List Char) :
    value (c :: cs) = digit c * bound cs.length + value cs := by
  rw [value, Nat.ofDigitChars_cons, Nat.ofDigitChars_eq_ofDigitChars_zero, bound_eq, value]
  rw [Nat.mul_zero, Nat.zero_add, Nat.mul_comm]
  rfl

theorem value_lt {cs : List Char} (h : cs.all Char.isDigit = true) : value cs < bound cs.length := by
  induction cs with
  | nil => exact Nat.zero_lt_one
  | cons c cs ih =>
    rw [List.all_cons, Bool.and_eq_true] at h
    have hcs := ih h.2
    have hc : digit c + 1 ≤ 10 := digit_lt h.1
    have hmul := Nat.mul_le_mul_right (bound cs.length) hc
    rw [Nat.succ_mul] at hmul
    rw [value_cons, List.length_cons, bound]
    omega

/-- Of two texts with equally many digits the one that comes first stands for the smaller number. -/
theorem value_lt_value_iff {cs ds : List Char} (hlength : cs.length = ds.length)
    (hcs : cs.all Char.isDigit = true) (hds : ds.all Char.isDigit = true) :
    value cs < value ds ↔ cs < ds := by
  induction cs generalizing ds with
  | nil =>
    obtain rfl := List.length_eq_zero_iff.1 hlength.symm
    exact ⟨fun h => absurd h (Nat.lt_irrefl _), fun h => absurd h (List.lt_irrefl _)⟩
  | cons c cs ih =>
    cases ds with
    | nil => simp at hlength
    | cons d ds =>
      rw [List.all_cons, Bool.and_eq_true] at hcs hds
      have hrest : cs.length = ds.length := by simpa using hlength
      have hlt := ih hrest hcs.2 hds.2
      have hc := value_lt hcs.2
      have hd := value_lt hds.2
      rw [value_cons, value_cons, List.cons_lt_cons_iff, ← digit_lt_digit_iff hcs.1 hds.1, ← hlt,
        hrest]
      rw [hrest] at hc
      constructor
      · intro h
        rcases Nat.lt_trichotomy (digit c) (digit d) with hfirst | hfirst | hfirst
        · exact .inl hfirst
        · rw [hfirst] at h
          exact .inr ⟨digit_inj hcs.1 hds.1 hfirst, by omega⟩
        · have hmul := Nat.mul_le_mul_right (bound ds.length) hfirst
          rw [Nat.succ_mul] at hmul
          omega
      · intro h
        rcases h with hfirst | ⟨rfl, hfirst⟩
        · have hmul := Nat.mul_le_mul_right (bound ds.length) hfirst
          rw [Nat.succ_mul] at hmul
          omega
        · omega

theorem value_inj {cs ds : List Char} (hlength : cs.length = ds.length)
    (hcs : cs.all Char.isDigit = true) (hds : ds.all Char.isDigit = true)
    (h : value cs = value ds) : cs = ds := by
  have hlt : ¬cs < ds := fun hlt => by
    have := (value_lt_value_iff hlength hcs hds).2 hlt
    omega
  have hgt : ¬ds < cs := fun hgt => by
    have := (value_lt_value_iff hlength.symm hds hcs).2 hgt
    omega
  exact List.le_antisymm (List.not_lt.1 hgt) (List.not_lt.1 hlt)

/-! ## Digits of a number -/

theorem all_isDigit_digits (width n : Nat) : (digits width n).all Char.isDigit = true := by
  rw [digits, List.all_append, Bool.and_eq_true, List.all_eq_true, List.all_eq_true]
  constructor
  · intro c hc
    rw [List.eq_of_mem_replicate hc]
    rfl
  · intro c hc
    exact Nat.isDigit_of_mem_toDigits (by decide) (by decide) hc

theorem value_digits (width n : Nat) : value (digits width n) = n := by
  rw [value, digits, Nat.ofDigitChars_append, Nat.ofDigitChars_replicate_zero, Nat.mul_zero,
    Nat.ofDigitChars_ten_toDigits]

theorem length_digits_pos (width n : Nat) : 0 < (digits width n).length := by
  have hpos : 0 < (Nat.toDigits 10 n).length := Nat.length_toDigits_pos
  rw [digits, List.length_append]
  omega

theorem length_digits {width n : Nat} (hwidth : 0 < width) (h : n < bound width) :
    (digits width n).length = width := by
  have hle : (Nat.toDigits 10 n).length ≤ width := by
    rw [Nat.length_toDigits_le_iff (by decide) hwidth]
    rw [bound_eq] at h
    exact h
  rw [digits, List.length_append, List.length_replicate]
  omega

/-- Digits are the written form, in their width, of the number that they stand for. -/
theorem digits_value {cs : List Char} (hne : 0 < cs.length) (h : cs.all Char.isDigit = true) :
    digits cs.length (value cs) = cs :=
  value_inj (length_digits hne (value_lt h)) (all_isDigit_digits _ _) h (value_digits _ _)

theorem toList_padded (width n : Nat) : (padded width n).toList = digits width n :=
  String.toList_ofList

end SegmentedFiles.Decimal
