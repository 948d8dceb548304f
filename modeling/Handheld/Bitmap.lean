/-
# Bitmaps

Sets of small numbers packed into 64 bit words. A set has room for the numbers
of its words; asking for a number beyond them is a fault.
-/

import Handheld.Fault

namespace Handheld.Bitmap

/-- The bit of `i` within its word. -/
@[inline]
def bit (i : Nat) : UInt64 :=
  1 <<< UInt64.ofNat (i % 64)

/-- An empty set with room for the numbers below `n`. -/
def empty (n : Nat) : Array UInt64 :=
  .replicate ((n + 63) / 64) 0

/-- Put `i` into the set. -/
@[inline]
def insert (words : Array UInt64) (i : Nat) : Checked (Array UInt64) :=
  if h : i / 64 < words.size then .ok (words.set (i / 64) (words[i / 64] ||| bit i))
  else .error .outOfBounds

/-- Whether `i` is in the set. -/
@[inline]
def contains (words : Array UInt64) (i : Nat) : Checked Bool := do
  let word ← Cells.get words (i / 64)
  .ok (word &&& bit i != 0)

/-- The number of set bits of a word. -/
def population (word : UInt64) : Nat :=
  (List.range 64).countP word.toNat.testBit

/-- The number of members, over all words present. -/
def count (words : Array UInt64) : Nat :=
  words.foldl (fun n word => n + population word) 0

end Handheld.Bitmap
