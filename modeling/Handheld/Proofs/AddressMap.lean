/-
# Addresses as numbers

The bus has 21 lines, so an address counts modulo 2 to the 21. On that number
decoding is a comparison with the bounds of the windows, and the masks that
repeat a buffer are remainders by its size.
-/

import Mathlib.Data.Nat.Bitwise
import Handheld.Bus

namespace Handheld

/-- The number that an address puts on the lines that exist. -/
def lineOf (address : UInt32) : Nat :=
  address.toNat % 0x200000

theorem lineOf_lt (address : UInt32) : lineOf address < 0x200000 :=
  Nat.mod_lt _ (by decide)

theorem toNat_and_busMask (address : UInt32) : (address &&& busMask).toNat = lineOf address := by
  rw [UInt32.toNat_and]
  exact Nat.and_two_pow_sub_one_eq_mod address.toNat 21

/-- Latching an address keeps its lines. -/
theorem lineOf_and_busMask (address : UInt32) : lineOf (address &&& busMask) = lineOf address := by
  rw [lineOf, toNat_and_busMask]
  exact Nat.mod_mod _ _

/-- The windows cover the lines in ascending order. -/
theorem regionOf_eq (address : UInt32) :
    regionOf address =
      if lineOf address < 0x1000 then .bios
      else if lineOf address < 0x2000 then .ram
      else if lineOf address < 0x2100 then .registers
      else .cartridge := by
  have bound := lineOf_lt address
  have within (first last : UInt32) (region : Region) :
      Window.contains ⟨first, last, region⟩ (address &&& busMask) =
        decide (first.toNat ≤ lineOf address ∧ lineOf address ≤ last.toNat) := by
    simp only [Window.contains, UInt32.le_iff_toNat_le, toNat_and_busMask, Bool.decide_and]
  have hit {first last : Nat} (above : first ≤ lineOf address) (below : lineOf address ≤ last) :
      decide (first ≤ lineOf address ∧ lineOf address ≤ last) = true :=
    decide_eq_true ⟨above, below⟩
  have miss {first last : Nat} (beyond : last < lineOf address) :
      decide (first ≤ lineOf address ∧ lineOf address ≤ last) = false :=
    decide_eq_false fun inside => Nat.not_lt.mpr inside.2 beyond
  simp only [regionOf, addressMap, List.find?, within, UInt32.reduceToNat]
  split_ifs with bios ram registers
  · rw [hit (Nat.zero_le _) (by omega)]
  · rw [miss (by omega), hit (by omega) (by omega)]
  · rw [miss (by omega), miss (by omega), hit (by omega) (by omega)]
  · rw [miss (by omega), miss (by omega), miss (by omega), hit (by omega) (by omega)]

/-- An address that has been latched on the lines decodes as before. -/
theorem decode_and_busMask (address : UInt32) (biosLength cartridgeLength : Nat) :
    decode (address &&& busMask) biosLength cartridgeLength =
      decode address biosLength cartridgeLength := by
  have latched : address &&& busMask &&& busMask = address &&& busMask := by
    rw [UInt32.and_assoc, UInt32.and_self]
  simp only [decode, regionOf, latched]

/-- The mask of a buffer whose size is a power of two is a remainder, even where
the size exceeds the word. -/
theorem toNat_and_sizeMask (word : UInt32) (exponent : Nat) :
    (word &&& sizeMask (2 ^ exponent)).toNat = word.toNat % 2 ^ exponent := by
  have positive : 2 ^ exponent ≠ 0 := (Nat.two_pow_pos exponent).ne'
  rw [sizeMask, if_neg positive, UInt32.toNat_and, UInt32.toNat_ofNat']
  refine Nat.eq_of_testBit_eq fun i => ?_
  rw [Nat.testBit_and, Nat.testBit_mod_two_pow, Nat.testBit_mod_two_pow,
    Nat.testBit_two_pow_sub_one]
  by_cases inWord : i < 32
  · simp [inWord, Bool.and_comm]
  · have beyond : word.toNat.testBit i = false :=
      Nat.testBit_lt_two_pow (word.toNat_lt.trans_le (Nat.pow_le_pow_right (by decide) (by omega)))
    simp [beyond]

end Handheld
