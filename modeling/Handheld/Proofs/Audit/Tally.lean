/-
# Tallies as finite maps

A tally is known by its entries, in whatever order they are met: setting a count
replaces one entry, and entering the entries of a tally in any order builds it
again. Because its opcodes are distinct 16 bit numbers, a tally is never long.
-/

import Mathlib.Data.List.Sort
import Handheld.Audit.Tally
import Handheld.Proofs.Checked

namespace Handheld.Tally

open Checked

variable {opcode other : UInt16} {count : UInt32} {entry : UInt16 × UInt32}
  {entries : List (UInt16 × UInt32)}

/-- An entry is in its place, and has displaced only the one with its opcode. -/
theorem mem_place (ascending : entries.Pairwise (fun a b => a.1 < b.1)) :
    entry ∈ place opcode count entries ↔
      entry = (opcode, count) ∨ entry ∈ entries ∧ entry.1 ≠ opcode := by
  induction entries with
  | nil => simp [place]
  | cons head rest ih =>
      obtain ⟨below, tail⟩ := List.pairwise_cons.mp ascending
      unfold place
      split
      · rename_i before
        have others : ∀ e ∈ head :: rest, e.1 ≠ opcode := by
          intro e member same
          rcases List.mem_cons.mp member with rfl | member
          · exact UInt16.ne_of_lt before same.symm
          · exact UInt16.ne_of_lt (UInt16.lt_trans before (below e member)) same.symm
        rw [List.mem_cons]
        exact or_congr_right ⟨fun member => ⟨member, others entry member⟩, And.left⟩
      · split
        · rename_i same
          have others : ∀ e ∈ rest, e.1 ≠ opcode := fun e member equal =>
            UInt16.ne_of_lt (below e member) (same.symm.trans equal.symm)
          rw [List.mem_cons, List.mem_cons]
          refine or_congr_right ⟨fun member => ⟨.inr member, others entry member⟩, ?_⟩
          rintro ⟨rfl | member, distinct⟩
          · exact absurd same.symm distinct
          · exact member
        · rename_i distinct
          rw [List.mem_cons, List.mem_cons, ih tail]
          constructor
          · rintro (rfl | rfl | ⟨member, differs⟩)
            · exact .inr ⟨.inl rfl, Ne.symm distinct⟩
            · exact .inl rfl
            · exact .inr ⟨.inr member, differs⟩
          · rintro (rfl | ⟨rfl | member, differs⟩)
            · exact .inr (.inl rfl)
            · exact .inl rfl
            · exact .inr (.inr ⟨member, differs⟩)

theorem mem_set (tally : Tally) :
    entry ∈ (tally.set opcode count).entries ↔
      entry = (opcode, count) ∨ entry ∈ tally.entries ∧ entry.1 ≠ opcode :=
  mem_place tally.ascending

theorem nodup_entries (tally : Tally) : tally.entries.Nodup :=
  tally.ascending.imp fun less same => UInt16.ne_of_lt less (congrArg Prod.fst same)

/-- Tallies with the same entries are equal, because both are in order. -/
theorem eq_of_mem_iff {first second : Tally}
    (same : ∀ entry, entry ∈ first.entries ↔ entry ∈ second.entries) : first = second := by
  have perm : first.entries.Perm second.entries :=
    (List.perm_ext_iff_of_nodup first.nodup_entries second.nodup_entries).mpr same
  refine Tally.ext (List.Perm.eq_of_pairwise ?_ first.ascending second.ascending perm)
  intro a b _ _ less greater
  exact absurd (UInt16.lt_trans less greater) (UInt16.lt_irrefl _)

/-- Entering entries with distinct opcodes adds them and displaces what was
there under their opcodes. -/
theorem mem_foldl_set {order : List (UInt16 × UInt32)}
    (distinct : order.Pairwise (fun a b => a.1 ≠ b.1)) (tally : Tally) :
    entry ∈ (order.foldl (fun tally e => tally.set e.1 e.2) tally).entries ↔
      entry ∈ order ∨ entry ∈ tally.entries ∧ ∀ e ∈ order, entry.1 ≠ e.1 := by
  induction order generalizing tally with
  | nil => simp
  | cons head rest ih =>
      obtain ⟨apart, tail⟩ := List.pairwise_cons.mp distinct
      rw [List.foldl_cons, ih tail, mem_set]
      simp only [List.mem_cons, forall_eq_or_imp]
      constructor
      · rintro (member | ⟨rfl | ⟨member, differs⟩, others⟩)
        · exact .inl (.inr member)
        · exact .inl (.inl rfl)
        · exact .inr ⟨member, differs, others⟩
      · rintro ((rfl | member) | ⟨member, differs, others⟩)
        · exact .inr ⟨.inl rfl, apart⟩
        · exact .inl member
        · exact .inr ⟨.inr ⟨member, differs⟩, others⟩

/-- The opcodes of a tally stay distinct in whatever order its entries are met. -/
theorem distinct_of_perm {tally : Tally} {order : List (UInt16 × UInt32)}
    (perm : order.Perm tally.entries) : order.Pairwise (fun a b => a.1 ≠ b.1) :=
  perm.symm.pairwise (tally.ascending.imp UInt16.ne_of_lt) Ne.symm

/-- The entries of a tally build it again, in whatever order they come. -/
theorem ofList_of_perm {tally : Tally} {order : List (UInt16 × UInt32)}
    (perm : order.Perm tally.entries) : ofList order = tally := by
  apply eq_of_mem_iff
  intro entry
  rw [ofList, mem_foldl_set (distinct_of_perm perm), perm.mem_iff]
  simp [empty]

/-- A tally has at most one entry for each opcode. -/
theorem length_le_of_ascending {low : Nat} (ascending : entries.Pairwise (fun a b => a.1 < b.1))
    (bounded : ∀ e ∈ entries, low ≤ e.1.toNat) (room : low ≤ UInt16.size) :
    low + entries.length ≤ UInt16.size := by
  induction entries generalizing low with
  | nil => simpa using room
  | cons head rest ih =>
      obtain ⟨below, tail⟩ := List.pairwise_cons.mp ascending
      have atLeast : low ≤ head.1.toNat := bounded head List.mem_cons_self
      have fits : head.1.toNat + 1 ≤ UInt16.size := head.1.toNat_lt
      have restFits := ih tail (fun e member => UInt16.lt_iff_toNat_lt.mp (below e member)) fits
      rw [List.length_cons]
      omega

theorem length_entries_le (tally : Tally) : tally.entries.length ≤ UInt16.size := by
  have bound := length_le_of_ascending tally.ascending (fun _ _ => Nat.zero_le _) (Nat.zero_le _)
  omega

theorem lookup_entry :
    (entry :: entries).lookup other =
      if other = entry.1 then some entry.2 else entries.lookup other := by
  rw [List.lookup_cons]
  by_cases same : other = entry.1
  · rw [beq_iff_eq.mpr same, if_pos same]
  · rw [beq_eq_false_iff_ne.mpr same, if_neg same]

theorem lookup_place :
    (place opcode count entries).lookup other =
      if other = opcode then some count else entries.lookup other := by
  induction entries with
  | nil => rw [place, lookup_entry]
  | cons head rest ih =>
      unfold place
      split
      · rw [lookup_entry]
      · split
        · rename_i same
          subst same
          rw [lookup_entry, lookup_entry]
          split <;> rfl
        · rename_i distinct
          rw [lookup_entry, lookup_entry, ih]
          by_cases atHead : other = head.1
          · rw [if_pos atHead, if_pos atHead, if_neg (atHead ▸ Ne.symm distinct)]
          · rw [if_neg atHead, if_neg atHead]

theorem get_set (tally : Tally) :
    (tally.set opcode count).get other = if other = opcode then count else tally.get other := by
  rw [get, set, lookup_place]
  split <;> rfl

/-- An opcode before all entries has none. -/
theorem lookup_of_below (below : ∀ e ∈ entries, opcode < e.1) : entries.lookup opcode = none := by
  refine List.lookup_eq_none_iff.mpr fun e member => ?_
  exact bne_iff_ne.mpr (UInt16.ne_of_lt (below e member))

/-- In the sum the new count stands for the old one. -/
theorem sum_place (ascending : entries.Pairwise (fun a b => a.1 < b.1)) :
    sum (place opcode count entries) + ((entries.lookup opcode).getD 0).toNat =
      sum entries + count.toNat := by
  induction entries with
  | nil => simp [place, sum]
  | cons head rest ih =>
      obtain ⟨below, tail⟩ := List.pairwise_cons.mp ascending
      have cons : ∀ e es, sum (e :: es) = e.2.toNat + sum es := fun _ _ => rfl
      unfold place
      split
      · rename_i before
        have absent : (head :: rest).lookup opcode = none := by
          refine lookup_of_below fun e member => ?_
          rcases List.mem_cons.mp member with rfl | member
          · exact before
          · exact UInt16.lt_trans before (below e member)
        rw [absent, cons (opcode, count)]
        simp [Nat.add_comm]
      · split
        · rename_i same
          rw [cons, cons, lookup_entry, if_pos same, Option.getD_some]
          dsimp only
          omega
        · rename_i distinct
          rw [cons, cons, lookup_entry, if_neg distinct]
          have inRest := ih tail
          omega

/-- Counting an opcode adds one to its count and to the total. -/
theorem of_increment {tally changed : Tally} (counted : tally.increment opcode = .ok changed) :
    (∀ other, (changed.get other).toNat =
        (tally.get other).toNat + if other = opcode then 1 else 0) ∧
      changed.total = tally.total + 1 := by
  obtain ⟨count, added, same⟩ := bind_eq_ok.mp counted
  obtain ⟨-, sum⟩ := of_add32_eq_ok added
  cases same
  constructor
  · intro other
    rw [get_set]
    split
    · rename_i equal
      rw [sum, equal]
      rfl
    · rfl
  · have replaced : Tally.sum (place opcode count tally.entries) + _ = _ :=
      sum_place tally.ascending
    show Tally.sum (place opcode count tally.entries) = Tally.sum tally.entries + 1
    have one : (1 : UInt32).toNat = 1 := rfl
    rw [get] at sum
    omega

end Handheld.Tally
