/-
# Tallies

A finite map from opcodes to counts. Its entries are kept in ascending order of
opcodes, so two tallies with the same entries are equal. An opcode may be
present with a count of zero.
-/

import Handheld.Fault

namespace Handheld

/-- Counts by opcode. -/
structure Tally where
  entries : List (UInt16 × UInt32)
  ascending : entries.Pairwise (fun a b => a.1 < b.1)

namespace Tally

theorem ext {a b : Tally} (h : a.entries = b.entries) : a = b := by
  cases a; cases b; cases h; rfl

/-- No opcode. -/
def empty : Tally := ⟨[], .nil⟩

/-- The count of an opcode, zero if it is absent. -/
def get (tally : Tally) (opcode : UInt16) : UInt32 :=
  (tally.entries.lookup opcode).getD 0

/-- Put an entry in its place, over the one with the same opcode if any. -/
def place (opcode : UInt16) (count : UInt32) :
    List (UInt16 × UInt32) → List (UInt16 × UInt32)
  | [] => [(opcode, count)]
  | entry :: rest =>
    if opcode < entry.1 then (opcode, count) :: entry :: rest
    else if opcode = entry.1 then (opcode, count) :: rest
    else entry :: place opcode count rest

theorem fst_of_mem_place {opcode : UInt16} {count : UInt32} {entries : List (UInt16 × UInt32)}
    {entry : UInt16 × UInt32} (h : entry ∈ place opcode count entries) :
    entry.1 = opcode ∨ entry ∈ entries := by
  induction entries with
  | nil =>
    simp only [place, List.mem_singleton] at h
    exact .inl (by rw [h])
  | cons head rest ih =>
    unfold place at h
    split at h
    · rcases List.mem_cons.mp h with rfl | h
      · exact .inl rfl
      · exact .inr h
    · split at h
      · rcases List.mem_cons.mp h with rfl | h
        · exact .inl rfl
        · exact .inr (List.mem_cons_of_mem _ h)
      · rcases List.mem_cons.mp h with rfl | h
        · exact .inr List.mem_cons_self
        · exact (ih h).imp_right (List.mem_cons_of_mem _)

theorem ascending_place (opcode : UInt16) (count : UInt32) {entries : List (UInt16 × UInt32)}
    (h : entries.Pairwise (fun a b => a.1 < b.1)) :
    (place opcode count entries).Pairwise (fun a b => a.1 < b.1) := by
  induction entries with
  | nil => simp [place]
  | cons head rest ih =>
    obtain ⟨below, tail⟩ := List.pairwise_cons.mp h
    unfold place
    split
    · rename_i less
      refine List.pairwise_cons.mpr ⟨fun entry member => ?_, h⟩
      rcases List.mem_cons.mp member with rfl | member
      · exact less
      · exact UInt16.lt_trans less (below entry member)
    · split
      · rename_i same
        exact List.pairwise_cons.mpr ⟨fun entry member => same ▸ below entry member, tail⟩
      · rename_i notLess notSame
        refine List.pairwise_cons.mpr ⟨fun entry member => ?_, ih tail⟩
        rcases fst_of_mem_place member with same | member
        · rw [same]
          rw [UInt16.lt_iff_toNat_lt] at notLess ⊢
          have : opcode.toNat ≠ head.1.toNat := fun h => notSame (UInt16.toNat.inj h)
          omega
        · exact below entry member

/-- Replace the count of an opcode. -/
def set (tally : Tally) (opcode : UInt16) (count : UInt32) : Tally :=
  ⟨place opcode count tally.entries, ascending_place opcode count tally.ascending⟩

/-- Count an opcode once more. -/
def increment (tally : Tally) (opcode : UInt16) : Checked Tally := do
  let count ← add32 (tally.get opcode) 1
  .ok (tally.set opcode count)

/-- Enter a list of entries; of several with one opcode the last stands. -/
def ofList (entries : List (UInt16 × UInt32)) : Tally :=
  entries.foldl (fun tally entry => tally.set entry.1 entry.2) empty

/-- The sum of the counts of a row of entries. -/
def sum (entries : List (UInt16 × UInt32)) : Nat :=
  entries.foldr (fun entry sum => entry.2.toNat + sum) 0

/-- The sum of all counts. -/
def total (tally : Tally) : Nat :=
  sum tally.entries

/-- The comparison by which entries are ranked. It also holds of an entry and itself. -/
def ranksUpTo (first second : UInt16 × UInt32) : Bool :=
  second.2 < first.2 || (first.2 == second.2 && first.1 ≤ second.1)

/-- A row of entries by falling count, and by rising opcode where counts are equal. -/
def rank (entries : List (UInt16 × UInt32)) : List (UInt16 × UInt32) :=
  entries.mergeSort ranksUpTo

/-- All entries, ranked. -/
def ranking (tally : Tally) : List (UInt16 × UInt32) :=
  rank tally.entries

end Tally

end Handheld
