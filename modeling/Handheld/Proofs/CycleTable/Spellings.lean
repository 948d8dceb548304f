/-
# Spellings of opcodes and counts

A hexadecimal number may have a mark in front, any number of zeroes, and letters of either
case. An opcode is spelled by its number, or, where it stands behind one of the two prefix
bytes, by that byte and its own with a colon in between. Counts are decimal numerals.

Whatever spelling is chosen, the field is read as the value that was meant. No field can
run into its neighbours, because it has characters, and neither blanks nor the sign that
starts a comment are among them.
-/

import Mathlib.Data.List.TakeWhile
import Handheld.Audit.CycleTable
import Handheld.Proofs.Text.Numerals

namespace Handheld.CycleTable

open Digits

variable {n : Nat} {field : List Char}

/-- The field stands for itself: it is not empty, not divided by blanks, and not cut short
by a comment. -/
structure Solid (field : List Char) : Prop where
  ne_nil : field ≠ []
  plain : ∀ c ∈ field, Text.isBlank c = false ∧ c ≠ '#'

theorem solid_of_isNumeral {base : Nat} (many : 1 < base) (few : base ≤ 16)
    (numeral : IsNumeral base n field) : Solid field := by
  refine ⟨numeral.ne_nil, fun c inside => ⟨?_, ?_⟩⟩
  · obtain ⟨value, valued⟩ := numeral.valued many few c inside
    exact isBlank_eq_false_of_value? valued
  · have noDigit : value? base '#' = none := by simp [value?_eq]
    exact ne_of_mem_of_not_mem inside (numeral.notMem many few noDigit)

/-- The field is a hexadecimal numeral of `n`, with or without a mark in front. -/
def IsHexadecimal (n : Nat) (field : List Char) : Prop :=
  ∃ mark digits, mark ∈ [[], ['0', 'x'], ['0', 'X']] ∧ field = mark ++ digits ∧
    IsNumeral 16 n digits

theorem dropMarks_eq_self {letter : Char} (absent : letter ∉ field) :
    dropMarks letter field = field := by
  unfold dropMarks
  split
  · rename_i c rest
    have other : c ≠ letter := by
      rintro rfl
      simp at absent
    exact if_neg other
  · rfl

namespace IsHexadecimal

variable (numeral : IsHexadecimal n field)
include numeral

theorem hexadecimal?_eq (small : n < 0x10000) : hexadecimal? field = some n := by
  obtain ⟨mark, digits, known, rfl, numeral⟩ := numeral
  have noLower : 'x' ∉ digits := numeral.notMem (by decide) (by decide) (by decide)
  have noUpper : 'X' ∉ digits := numeral.notMem (by decide) (by decide) (by decide)
  have lower : dropMarks 'x' digits = digits := dropMarks_eq_self noLower
  have upper : dropMarks 'X' digits = digits := dropMarks_eq_self noUpper
  have unmarked : dropMarks 'X' (dropMarks 'x' (mark ++ digits)) = digits := by
    simp only [List.mem_cons, List.not_mem_nil, or_false] at known
    rcases known with rfl | rfl | rfl
    · rw [List.nil_append, lower, upper]
    · show dropMarks 'X' (dropMarks 'x' digits) = digits
      rw [lower, upper]
    · have kept : dropMarks 'x' (['0', 'X'] ++ digits) = ['0', 'X'] ++ digits :=
        dropMarks_eq_self (by simp [noLower])
      rw [kept]
      exact upper
  rw [hexadecimal?, unmarked]
  exact numeral.below?_eq (by decide) (by decide) small

theorem mem_cases {c : Char} (inside : c ∈ field) :
    c = 'x' ∨ c = 'X' ∨ ∃ value, value? 16 c = some value := by
  obtain ⟨mark, digits, known, rfl, numeral⟩ := numeral
  rcases List.mem_append.mp inside with marked | digit
  · have letters : ∀ mark ∈ [[], ['0', 'x'], ['0', 'X']], ∀ c ∈ mark,
        c = 'x' ∨ c = 'X' ∨ c = '0' := by simp
    rcases letters mark known c marked with lower | upper | rfl
    · exact .inl lower
    · exact .inr (.inl upper)
    · exact .inr (.inr ⟨0, rfl⟩)
  · exact .inr (.inr (numeral.valued (by decide) (by decide) c digit))

theorem notMem {c : Char} (notLower : c ≠ 'x') (notUpper : c ≠ 'X')
    (noDigit : value? 16 c = none) : c ∉ field := by
  intro inside
  rcases numeral.mem_cases inside with lower | upper | ⟨value, valued⟩
  · exact notLower lower
  · exact notUpper upper
  · cases noDigit.symm.trans valued

theorem colon_notMem : ':' ∉ field :=
  numeral.notMem (by decide) (by decide) (by decide)

theorem solid : Solid field := by
  constructor
  · obtain ⟨mark, digits, -, rfl, numeral⟩ := numeral
    simp [numeral.ne_nil]
  · intro c inside
    have noComment : '#' ∉ field := numeral.notMem (by decide) (by decide) (by decide)
    refine ⟨?_, ne_of_mem_of_not_mem inside noComment⟩
    rcases numeral.mem_cases inside with rfl | rfl | ⟨value, valued⟩
    · decide
    · decide
    · exact isBlank_eq_false_of_value? valued

end IsHexadecimal

/-- The prefix bytes, each with the number of the first opcode behind it. -/
def pages : List (Nat × Nat) :=
  [(0xCE, 0x100), (0xCF, 0x200)]

/-- The spellings of an opcode that has a slot. -/
inductive Spells (opcode : UInt16) : List Char → Prop
  | number {field : List Char} (hasSlot : opcode.toNat < slots)
      (numeral : IsHexadecimal opcode.toNat field) : Spells opcode field
  | paged {page start byte : Nat} {first second : List Char} (known : (page, start) ∈ pages)
      (small : byte < 0x100) (number : opcode.toNat = start + byte)
      (firstNumeral : IsHexadecimal page first) (secondNumeral : IsHexadecimal byte second) :
      Spells opcode (first ++ ':' :: second)

namespace Spells

variable {opcode : UInt16} (spells : Spells opcode field)
include spells

theorem hasSlot : opcode.toNat < slots := by
  cases spells with
  | number hasSlot => exact hasSlot
  | paged known small number =>
      simp only [pages, List.mem_cons, List.not_mem_nil, or_false, Prod.mk.injEq] at known
      rw [number, slots]
      omega

theorem opcode?_eq : opcode? field = some opcode := by
  have hasSlot := spells.hasSlot
  unfold opcode?
  cases spells with
  | number _ numeral =>
      have whole : field.dropWhile (· != ':') = [] := by
        rw [List.dropWhile_eq_nil_iff]
        intro c inside
        exact bne_iff_ne.mpr (ne_of_mem_of_not_mem inside numeral.colon_notMem)
      have read := numeral.hexadecimal?_eq (Nat.lt_trans hasSlot (by decide))
      simp [whole, read, hasSlot]
  | @paged page start byte first second known small number firstNumeral secondNumeral =>
      have before : ∀ c ∈ first, (c != ':') = true := by
        intro c inside
        exact bne_iff_ne.mpr (ne_of_mem_of_not_mem inside firstNumeral.colon_notMem)
      have readSecond := secondNumeral.hexadecimal?_eq (Nat.lt_trans small (by decide))
      rw [number] at hasSlot
      have named : UInt16.ofNat (start + byte) = opcode := by
        rw [← number, UInt16.ofNat_toNat]
      simp only [List.dropWhile_append_of_pos before, List.takeWhile_append_of_pos before]
      simp only [pages, List.mem_cons, List.not_mem_nil, or_false, Prod.mk.injEq] at known
      rcases known with ⟨rfl, rfl⟩ | ⟨rfl, rfl⟩
      · have readFirst := firstNumeral.hexadecimal?_eq (by decide)
        simpa [readFirst, readSecond, small, hasSlot] using named
      · have readFirst := firstNumeral.hexadecimal?_eq (by decide)
        simpa [readFirst, readSecond, small, hasSlot] using named

theorem solid : Solid field := by
  cases spells with
  | number _ numeral => exact numeral.solid
  | paged _ _ _ firstNumeral secondNumeral =>
      refine ⟨by simp, fun c inside => ?_⟩
      rcases List.mem_append.mp inside with left | right
      · exact firstNumeral.solid.plain c left
      · rcases List.mem_cons.mp right with rfl | later
        · decide
        · exact secondNumeral.solid.plain c later

end Spells

theorem count?_eq {count : UInt8} (numeral : IsNumeral 10 count.toNat field) :
    count? field = some count := by
  rw [count?, numeral.below?_eq (by decide) (by decide) count.toNat_lt, Option.map_some,
    UInt8.ofNat_toNat]

end Handheld.CycleTable
