/-
# Numerals

A number is written with the digits of a base, which may be preceded by zeroes, and whose
letters may have either case. What is read of such a numeral is the number. The base is at
most sixteen, because that is as far as the library's digits go.
-/

import Mathlib.Data.List.Forall2
import Handheld.Text.Blank
import Handheld.Text.Digits

namespace Handheld.Digits

variable {base n : Nat} {c : Char} {text : List Char}

/-- The value of a digit by its code. -/
theorem value?_eq (base : Nat) (c : Char) :
    value? base c =
      let value :=
        if 48 ≤ c.toNat ∧ c.toNat ≤ 57 then c.toNat - 48
        else if 97 ≤ c.toNat ∧ c.toNat ≤ 122 then c.toNat - 97 + 10
        else if 65 ≤ c.toNat ∧ c.toNat ≤ 90 then c.toNat - 65 + 10
        else base
      if value < base then some value else none := by
  simp only [value?, Char.le_def, UInt32.le_iff_toNat_le]
  rfl

theorem toNat_toUpper (c : Char) :
    c.toUpper.toNat = if 97 ≤ c.toNat ∧ c.toNat ≤ 122 then c.toNat - 32 else c.toNat := by
  unfold Char.toUpper
  simp only [UInt32.le_iff_toNat_le]
  by_cases lower : 'a'.val.toNat ≤ c.val.toNat ∧ c.val.toNat ≤ 'z'.val.toNat
  · have range : 97 ≤ c.val.toNat ∧ c.val.toNat ≤ 122 := lower
    have shift : ('A'.val - 'a'.val).toNat = 2 ^ 32 - 32 := by decide
    rw [dif_pos lower]
    show (c.val + ('A'.val - 'a'.val)).toNat =
      if 97 ≤ c.val.toNat ∧ c.val.toNat ≤ 122 then c.val.toNat - 32 else c.val.toNat
    rw [if_pos range, UInt32.toNat_add, shift]
    omega
  · rw [dif_neg lower]
    exact (if_neg lower).symm

/-- The case of a letter has no part in its value. -/
theorem value?_toUpper (base : Nat) (c : Char) : value? base c.toUpper = value? base c := by
  rw [value?_eq, value?_eq, toNat_toUpper]
  by_cases lower : 97 ≤ c.toNat ∧ c.toNat ≤ 122
  · have noDigit : ¬ (48 ≤ c.toNat ∧ c.toNat ≤ 57) := by omega
    have noUpperDigit : ¬ (48 ≤ c.toNat - 32 ∧ c.toNat - 32 ≤ 57) := by omega
    have notLower : ¬ (97 ≤ c.toNat - 32 ∧ c.toNat - 32 ≤ 122) := by omega
    have upper : 65 ≤ c.toNat - 32 ∧ c.toNat - 32 ≤ 90 := by omega
    have sameValue : c.toNat - 32 - 65 = c.toNat - 97 := by omega
    simp only [if_pos lower, if_neg noDigit, if_neg noUpperDigit, if_neg notLower, if_pos upper,
      sameValue]
  · simp only [if_neg lower]

theorem value?_digitChar {digit : Nat} (few : base ≤ 16) (small : digit < base) :
    value? base digit.digitChar = some digit := by
  have known : ∀ digit < 16, ∀ base ≤ 16, digit < base →
      value? base (Nat.digitChar digit) = some digit := by decide
  exact known digit (Nat.lt_of_lt_of_le small few) base few small

/-- A digit is no blank, because only decimal digits and letters have a value. -/
theorem isBlank_eq_false_of_value? {value : Nat} (valued : value? base c = some value) :
    Text.isBlank c = false := by
  have alphanumeric : (48 ≤ c.toNat ∧ c.toNat ≤ 57) ∨ (97 ≤ c.toNat ∧ c.toNat ≤ 122) ∨
      (65 ≤ c.toNat ∧ c.toNat ≤ 90) := by
    by_contra other
    simp only [not_or] at other
    rw [value?_eq] at valued
    simp [other.1, other.2.1, other.2.2] at valued
  simp only [Text.isBlank, Bool.or_eq_false_iff, Bool.and_eq_false_iff, decide_eq_false_iff_not,
    beq_eq_false_iff_ne]
  omega

/-- Take one more digit. -/
def shiftIn (base n : Nat) (c : Char) : Option Nat :=
  (value? base c).map (base * n + ·)

theorem natural?_eq (nonempty : text ≠ []) : natural? base text = text.foldlM (shiftIn base) 0 := by
  rw [natural?, if_neg (by simpa using nonempty)]
  rfl

theorem below?_eq_of_unsigned {limit : Nat} (unsigned : '+' ∉ text)
    (read : natural? base text = some n) (small : n < limit) :
    below? limit base text = some n := by
  unfold below?
  split
  · exact absurd List.mem_cons_self unsigned
  · show (natural? base text >>= fun n => if n < limit then some n else none) = some n
    rw [read]
    exact if_pos small

/-- A row that is read has digits only. -/
theorem valued_of_foldlM {start : Nat} (read : text.foldlM (shiftIn base) start = some n) :
    ∀ c ∈ text, ∃ value, value? base c = some value := by
  induction text generalizing start with
  | nil => simp
  | cons digit digits ih =>
      rw [List.foldlM_cons] at read
      obtain ⟨next, taken, rest⟩ := Option.bind_eq_some_iff.mp read
      obtain ⟨value, valued, -⟩ := Option.map_eq_some_iff.mp taken
      intro c inside
      rcases List.mem_cons.mp inside with rfl | later
      · exact ⟨value, valued⟩
      · exact ih rest c later

theorem foldlM_zeros (positive : 0 < base) (zeros : Nat) :
    (List.replicate zeros '0').foldlM (shiftIn base) 0 = some 0 := by
  have zero : value? base '0' = some 0 := by simp [value?, positive]
  induction zeros with
  | zero => rfl
  | succ zeros ih => simpa [List.replicate_succ, shiftIn, zero] using ih

/-- The digits of a number, as the library has them, are read as the number. -/
theorem foldlM_toDigits (many : 1 < base) (few : base ≤ 16) (n : Nat) :
    (Nat.toDigits base n).foldlM (shiftIn base) 0 = some n := by
  induction n using Nat.strongRecOn with
  | ind n ih =>
      by_cases small : n < base
      · rw [Nat.toDigits_of_lt_base small]
        simp [shiftIn, value?_digitChar few small]
      · have last := value?_digitChar few (Nat.mod_lt n (Nat.zero_lt_of_lt many))
        rw [Nat.toDigits_of_base_le many (Nat.not_lt.mp small), List.foldlM_append,
          ih (n / base) (Nat.div_lt_self (by omega) many)]
        simp [shiftIn, last, Nat.div_add_mod]

/-- The case of the letters has no part in what is read. -/
theorem foldlM_of_forall₂ {digits lower : List Char}
    (cases : List.Forall₂ (fun c digit => c = digit ∨ c = digit.toUpper) digits lower)
    (start : Nat) : digits.foldlM (shiftIn base) start = lower.foldlM (shiftIn base) start := by
  induction cases generalizing start with
  | nil => rfl
  | @cons c digit _ _ either _ ih =>
      have same : value? base c = value? base digit := by
        rcases either with rfl | rfl
        · rfl
        · exact value?_toUpper base digit
      simp only [List.foldlM_cons, shiftIn, same, ih]

/-- The text is a numeral of `n`: any number of zeroes, and then its digits, each in either
case. -/
def IsNumeral (base n : Nat) (text : List Char) : Prop :=
  ∃ zeros digits, text = List.replicate zeros '0' ++ digits ∧
    List.Forall₂ (fun c digit => c = digit ∨ c = digit.toUpper) digits (Nat.toDigits base n)

theorem isNumeral_toDigits (base n : Nat) : IsNumeral base n (Nat.toDigits base n) :=
  ⟨0, _, rfl, List.forall₂_same.mpr fun _ _ => .inl rfl⟩

namespace IsNumeral

variable (numeral : IsNumeral base n text)
include numeral

theorem ne_nil : text ≠ [] := by
  obtain ⟨zeros, digits, rfl, cases⟩ := numeral
  intro empty
  have none : digits = [] := (List.append_eq_nil_iff.mp empty).2
  rw [none, List.forall₂_nil_left_iff] at cases
  exact Nat.toDigits_ne_nil cases

theorem foldlM_eq (many : 1 < base) (few : base ≤ 16) : text.foldlM (shiftIn base) 0 = some n := by
  obtain ⟨zeros, digits, rfl, cases⟩ := numeral
  rw [List.foldlM_append, foldlM_zeros (Nat.zero_lt_of_lt many)]
  exact (foldlM_of_forall₂ cases 0).trans (foldlM_toDigits many few n)

/-- Every character of a numeral is a digit of its base. -/
theorem valued (many : 1 < base) (few : base ≤ 16) :
    ∀ c ∈ text, ∃ value, value? base c = some value :=
  valued_of_foldlM (numeral.foldlM_eq many few)

/-- A character that is no digit is not in a numeral. -/
theorem notMem (many : 1 < base) (few : base ≤ 16) (noDigit : value? base c = none) :
    c ∉ text := by
  intro inside
  obtain ⟨value, valued⟩ := numeral.valued many few c inside
  cases noDigit.symm.trans valued

/-- A numeral is read as its number. -/
theorem below?_eq (many : 1 < base) (few : base ≤ 16) {limit : Nat} (small : n < limit) :
    below? limit base text = some n := by
  apply below?_eq_of_unsigned
  · apply numeral.notMem many few
    simp [value?_eq]
  · rw [natural?_eq numeral.ne_nil, numeral.foldlM_eq many few]
  · exact small

end IsNumeral

end Handheld.Digits
