/-
# Working memory

4096 bytes. Offsets beyond the end wrap around.
-/

import Handheld.Fault

namespace Handheld

/-- Working memory. A restored one may have any number of cells; only one with
`Ram.size` of them answers at every offset. -/
structure Ram where
  cells : Array UInt8
  deriving DecidableEq

namespace Ram

/-- The number of cells that the address map expects. -/
def size : Nat := 0x1000

/-- All cells zero. -/
def cleared : Ram :=
  ⟨.replicate size 0⟩

/-- The byte at an offset. -/
def read (ram : Ram) (offset : Nat) : Checked UInt8 :=
  Cells.get ram.cells (offset % size)

/-- Replace the byte at an offset. -/
def write (ram : Ram) (offset : Nat) (data : UInt8) : Checked Ram := do
  let cells ← Cells.set ram.cells (offset % size) data
  .ok ⟨cells⟩

end Ram

end Handheld
