/-
# Rankings

A ranking lists the entries of a tally by falling count, and by rising opcode where
counts are equal. The opcodes of a tally are distinct, so no two entries tie, and
there is only one list of the entries in this order. Whoever sorts them finds it,
in whatever order the entries were met.
-/

import Mathlib.Algebra.Ring.Nat
import Handheld.Proofs.Audit.Tally

namespace Handheld.Tally

open Checked

variable {a b entry : UInt16 × UInt32} {opcode : UInt16} {tally changed : Tally}
  {order other : List (UInt16 × UInt32)}

/-- An entry stands before another one: its count is greater, or the counts are equal and
its opcode is smaller. -/
def Outranks (first second : UInt16 × UInt32) : Prop :=
  second.2 < first.2 ∨ first.2 = second.2 ∧ first.1 < second.1

theorem Outranks.asymm (before : Outranks a b) : ¬ Outranks b a := by
  unfold Outranks at *
  rw [UInt32.lt_iff_toNat_lt, ← UInt32.toNat_inj, UInt16.lt_iff_toNat_lt] at *
  omega

theorem ranksUpTo_iff :
    ranksUpTo a b = true ↔
      b.2.toNat < a.2.toNat ∨ a.2.toNat = b.2.toNat ∧ a.1.toNat ≤ b.1.toNat := by
  simp [ranksUpTo, UInt32.lt_iff_toNat_lt, UInt16.le_iff_toNat_le, UInt32.toNat_inj]

theorem ranksUpTo_trans (a b c : UInt16 × UInt32) (first : ranksUpTo a b = true)
    (second : ranksUpTo b c = true) : ranksUpTo a c = true := by
  rw [ranksUpTo_iff] at *
  omega

theorem ranksUpTo_total (a b : UInt16 × UInt32) : (ranksUpTo a b || ranksUpTo b a) = true := by
  rw [Bool.or_eq_true, ranksUpTo_iff, ranksUpTo_iff]
  omega

theorem outranks_of_ranksUpTo (before : ranksUpTo a b = true) (distinct : a.1 ≠ b.1) :
    Outranks a b := by
  rw [ranksUpTo_iff] at before
  rw [Ne, ← UInt16.toNat_inj] at distinct
  rw [Outranks, UInt32.lt_iff_toNat_lt, ← UInt32.toNat_inj, UInt16.lt_iff_toNat_lt]
  omega

theorem rank_perm (order : List (UInt16 × UInt32)) : (rank order).Perm order :=
  List.mergeSort_perm order ranksUpTo

theorem ranking_perm (tally : Tally) : tally.ranking.Perm tally.entries :=
  rank_perm tally.entries

theorem pairwise_rank (distinct : order.Pairwise (fun a b => a.1 ≠ b.1)) :
    (rank order).Pairwise Outranks := by
  have sorted : (rank order).Pairwise (fun a b => ranksUpTo a b = true) :=
    List.pairwise_mergeSort ranksUpTo_trans ranksUpTo_total order
  have apart : (rank order).Pairwise (fun a b => a.1 ≠ b.1) :=
    (rank_perm order).symm.pairwise distinct Ne.symm
  exact (sorted.and apart).imp fun both => outranks_of_ranksUpTo both.1 both.2

/-- There is one way to list entries so that each outranks those after it. -/
theorem eq_of_pairwise_outranks (strict : order.Pairwise Outranks)
    (otherStrict : other.Pairwise Outranks) (perm : order.Perm other) : order = other :=
  List.Perm.eq_of_pairwise (fun _ _ _ _ before after => absurd after before.asymm)
    strict otherStrict perm

theorem pairwise_ranking (tally : Tally) : tally.ranking.Pairwise Outranks :=
  pairwise_rank (distinct_of_perm (.refl _))

/-- The entries of a tally have one ranking, in whatever order they are met. -/
theorem rank_eq_ranking (perm : order.Perm tally.entries) : rank order = tally.ranking :=
  eq_of_pairwise_outranks (pairwise_rank (distinct_of_perm perm)) tally.pairwise_ranking
    ((rank_perm order).trans (perm.trans tally.ranking_perm.symm))

/-- No opcode is listed twice. -/
theorem nodup_opcodes_ranking (tally : Tally) : (tally.ranking.map Prod.fst).Nodup :=
  List.pairwise_map.mpr (distinct_of_perm tally.ranking_perm)

theorem sum_eq (entries : List (UInt16 × UInt32)) :
    sum entries = (entries.map fun entry => entry.2.toNat).sum := by
  rw [sum, List.sum, List.foldr_map]

theorem sum_eq_total (perm : order.Perm tally.entries) : sum order = tally.total := by
  rw [total, sum_eq, sum_eq]
  exact (perm.map _).sum_nat

/-- Every opcode that is present has been counted. -/
def Positive (tally : Tally) : Prop :=
  ∀ entry ∈ tally.entries, 0 < entry.2.toNat

theorem get_of_mem (member : entry ∈ tally.entries) : tally.get entry.1 = entry.2 := by
  obtain ⟨before, after, split⟩ := List.append_of_mem member
  have ascending := tally.ascending
  rw [split, List.pairwise_append] at ascending
  have found : tally.entries.lookup entry.1 = some entry.2 := by
    refine List.lookup_eq_some_iff.mpr ⟨before, after, split, fun earlier inFront => ?_⟩
    have less := ascending.2.2 earlier inFront entry List.mem_cons_self
    exact bne_iff_ne.mpr (UInt16.ne_of_lt less).symm
  rw [get, found, Option.getD_some]

theorem mem_of_get_pos (counted : 0 < (tally.get opcode).toNat) :
    (opcode, tally.get opcode) ∈ tally.entries := by
  cases found : tally.entries.lookup opcode with
  | none =>
      rw [get, found] at counted
      cases counted
  | some count =>
      obtain ⟨before, after, split, -⟩ := List.lookup_eq_some_iff.mp found
      rw [get, found, split]
      exact List.mem_append_right _ List.mem_cons_self

/-- The opcodes that are present are those with a count. -/
theorem Positive.mem_opcodes (positive : tally.Positive) :
    opcode ∈ tally.entries.map Prod.fst ↔ 0 < (tally.get opcode).toNat := by
  constructor
  · intro present
    obtain ⟨entry, member, rfl⟩ := List.mem_map.mp present
    rw [get_of_mem member]
    exact positive entry member
  · intro counted
    exact List.mem_map.mpr ⟨_, mem_of_get_pos counted, rfl⟩

theorem positive_empty : empty.Positive := by
  intro entry member
  cases member

theorem Positive.increment (positive : tally.Positive)
    (counted : tally.increment opcode = .ok changed) : changed.Positive := by
  obtain ⟨count, added, same⟩ := bind_eq_ok.mp counted
  obtain ⟨-, sum⟩ := of_add32_eq_ok added
  cases same
  intro entry member
  rcases (mem_set tally).mp member with rfl | ⟨member, -⟩
  · rw [sum]
    exact Nat.succ_pos _
  · exact positive entry member

end Handheld.Tally
