/-
# Bitmaps as finite sets

The words of a bitmap stand for a finite set of numbers. Inserting adds one
number to it, looking up asks for membership, and counting the set bits of all
words gives its size.
-/

import Mathlib.Data.Finset.Card
import Mathlib.Data.Nat.Bitwise
import Mathlib.Data.Nat.Count
import Handheld.Proofs.Checked

namespace Handheld.Bitmap

open Checked

/-- Bit `i` of a row of words; beyond the last word there are no bits. -/
def bitAt (words : List UInt64) (i : Nat) : Bool :=
  (words.getD (i / 64) 0).toNat.testBit (i % 64)

/-- The numbers that a bitmap contains. -/
def members (words : Array UInt64) : Finset Nat :=
  (Finset.range (64 * words.size)).filter fun i => bitAt words.toList i = true

variable {words changed : Array UInt64} {i j : Nat}

theorem mem_members : i ∈ members words ↔ i / 64 < words.size ∧ bitAt words.toList i = true := by
  rw [members, Finset.mem_filter, Finset.mem_range]
  refine and_congr_left fun _ => ?_
  omega

theorem members_empty (n : Nat) : members (empty n) = ∅ := by
  refine Finset.eq_empty_of_forall_notMem fun i member => ?_
  have isSet := (mem_members.mp member).2
  have zero : (empty n).toList.getD (i / 64) 0 = 0 := by
    simp only [empty, Array.toList_replicate, List.getD_eq_getElem?_getD, List.getElem?_replicate]
    split <;> rfl
  rw [bitAt, zero] at isSet
  simp at isSet

theorem toNat_bit (i : Nat) : (bit i).toNat = 2 ^ (i % 64) := by
  have small : i % 64 < 64 := Nat.mod_lt _ (by decide)
  have exactly : (UInt64.ofNat (i % 64)).toNat = i % 64 :=
    UInt64.toNat_ofNat_of_lt' (small.trans (by decide))
  rw [bit, UInt64.toNat_shiftLeft, exactly, Nat.mod_eq_of_lt small, Nat.shiftLeft_eq]
  simp only [UInt64.reduceToNat, Nat.one_mul]
  exact Nat.mod_eq_of_lt (Nat.pow_lt_pow_right (by decide) small)

theorem testBit_or_bit (word : UInt64) (i k : Nat) :
    (word ||| bit i).toNat.testBit k = (word.toNat.testBit k || decide (i % 64 = k)) := by
  rw [UInt64.toNat_or, Nat.testBit_or, toNat_bit, Nat.testBit_two_pow]

theorem and_bit_ne_zero (word : UInt64) (i : Nat) :
    (word &&& bit i != 0) = word.toNat.testBit (i % 64) := by
  have meets : (word &&& bit i).toNat = (word.toNat.testBit (i % 64)).toNat * 2 ^ (i % 64) := by
    rw [UInt64.toNat_and, toNat_bit, Nat.and_two_pow]
  have positive : 2 ^ (i % 64) ≠ 0 := (Nat.two_pow_pos _).ne'
  cases held : word.toNat.testBit (i % 64) with
  | false =>
      rw [held] at meets
      have zero : word &&& bit i = 0 := UInt64.toNat.inj (by simpa using meets)
      simp [zero]
  | true =>
      rw [held] at meets
      have nonzero : word &&& bit i ≠ 0 := by
        intro zero
        rw [zero] at meets
        exact positive (by simpa using meets.symm)
      simpa using nonzero

/-- Inserting adds one number and nothing else. -/
theorem members_of_insert (inserted : insert words i = .ok changed) :
    members changed = {i} ∪ members words := by
  obtain ⟨room, rfl⟩ := of_insert_eq_ok inserted
  ext j
  rw [Finset.mem_union, Finset.mem_singleton, mem_members, mem_members, Array.size_set]
  by_cases sameWord : i / 64 = j / 64
  · have jRoom : j / 64 < words.size := sameWord ▸ room
    have word : (words.set (i / 64) (words[i / 64] ||| bit i)).toList.getD (j / 64) 0 =
        words.toList.getD (j / 64) 0 ||| bit i := by
      simp [sameWord, List.getD_eq_getElem?_getD, jRoom]
    rw [bitAt, word, testBit_or_bit, ← bitAt, Bool.or_eq_true, decide_eq_true_eq]
    constructor
    · rintro ⟨_, held | sameBit⟩
      · exact .inr ⟨jRoom, held⟩
      · exact .inl (by omega)
    · rintro (rfl | ⟨_, held⟩)
      · exact ⟨jRoom, .inr rfl⟩
      · exact ⟨jRoom, .inl held⟩
  · have word : (words.set (i / 64) (words[i / 64] ||| bit i)).toList.getD (j / 64) 0 =
        words.toList.getD (j / 64) 0 := by
      simp [List.getD_eq_getElem?_getD, sameWord]
    have other : j ≠ i := fun same => sameWord (by rw [same])
    rw [bitAt, word, ← bitAt]
    simp [other]

theorem insert_eq_ok (room : i / 64 < words.size) : ∃ changed, insert words i = .ok changed := by
  rw [insert, dif_pos room]
  exact ⟨_, rfl⟩

/-- Within the words that exist, looking up is membership. -/
theorem contains_eq (room : i / 64 < words.size) :
    contains words i = .ok (decide (i ∈ members words)) := by
  have word : words.toList.getD (i / 64) 0 = words[i / 64] := by
    simp [List.getD_eq_getElem?_getD, room]
  rw [contains, Cells.get_eq_ok room, ok_bind, and_bit_ne_zero]
  congr 1
  rw [Bool.eq_iff_iff, decide_eq_true_eq, mem_members, bitAt, word]
  exact ⟨fun held => ⟨room, held⟩, And.right⟩

theorem population_eq_count (word : UInt64) :
    population word = Nat.count (fun k => word.toNat.testBit k = true) 64 := by
  rw [population, Nat.count_eq_card_filter_range, List.countP_eq_length_filter]
  show _ = ((List.range 64).filter fun k => decide (word.toNat.testBit k = true)).length
  simp only [Bool.decide_eq_true]

/-- The first word of a row holds its first 64 bits. -/
theorem count_bitAt_cons (word : UInt64) (rest : List UInt64) (n : Nat) :
    Nat.count (fun k => bitAt (word :: rest) k = true) (64 + n) =
      population word + Nat.count (fun k => bitAt rest k = true) n := by
  have first : ∀ k ∈ Finset.range 64, bitAt (word :: rest) k = word.toNat.testBit k := by
    intro k below
    rw [Finset.mem_range] at below
    rw [bitAt, Nat.div_eq_of_lt below, Nat.mod_eq_of_lt below]
    rfl
  have shifted : ∀ k, bitAt (word :: rest) (64 + k) = bitAt rest k := by
    intro k
    rw [bitAt, Nat.add_mod_left, Nat.add_div_left k (by decide)]
    rfl
  rw [Nat.count_add, population_eq_count]
  simp only [shifted, Nat.count_eq_card_filter_range]
  rw [Finset.filter_congr fun k below => by rw [first k below]]

theorem foldl_population (words : List UInt64) (n : Nat) :
    words.foldl (fun n word => n + population word) n =
      n + Nat.count (fun k => bitAt words k = true) (64 * words.length) := by
  induction words generalizing n with
  | nil => rfl
  | cons word rest ih =>
      rw [List.foldl_cons, ih, List.length_cons, Nat.mul_succ, Nat.add_comm _ 64,
        count_bitAt_cons, Nat.add_assoc]

/-- The set bits of all words number the members. -/
theorem count_eq_card (words : Array UInt64) : count words = (members words).card := by
  rw [count, ← Array.foldl_toList, foldl_population, Nat.zero_add,
    Nat.count_eq_card_filter_range]
  rfl

/-- There are no more members than bits. -/
theorem count_le (words : Array UInt64) : count words ≤ 64 * words.size := by
  rw [count_eq_card]
  exact (Finset.card_filter_le _ _).trans_eq (Finset.card_range _)

end Handheld.Bitmap
