/-
# Coverage

How much of the two images and of the instruction set a run has used, and which
opcodes disagreed with the cycle table most often.
-/

import Handheld.Audit.Basic
import Handheld.Rom

namespace Handheld

/-- A coverage report. `worst` lists the opcodes with discrepancies, the most
frequent first. -/
structure Coverage where
  biosTouched : Nat
  biosLength : Nat
  cartridgeTouched : Nat
  cartridgeLength : Nat
  executed : Nat
  discrepancies : Nat
  worst : List (UInt16 × UInt32)
  deriving DecidableEq, Repr

namespace Coverage

/-- The number of instructions that exist; the two prefixed pages have gaps. -/
def instructions : Nat := 608

/-- The lines of a report. At most eight opcodes are listed. -/
def lines (coverage : Coverage) : List String :=
  [ s!"{coverage.biosTouched} bytes out of total {coverage.biosLength} read from bios",
    s!"{coverage.cartridgeTouched} bytes out of total {coverage.cartridgeLength} read from cartridge",
    s!"{coverage.executed} instructions out of total {instructions} executed" ] ++
  if coverage.discrepancies = 0 then []
  else
    s!"{coverage.discrepancies} cycle discrepancies" ::
      (coverage.worst.take 8).map fun (opcode, count) =>
        s!"  0x{Digits.hex 3 opcode.toNat}: {count}"

/-- The report as one text. -/
def text (coverage : Coverage) : String :=
  "\n".intercalate coverage.lines

end Coverage

/-- Draw up the coverage report of an audit, whose discrepancies are met in a given
order, and two images. -/
def Audit.coverageInOrder (audit : Audit) (order : List (UInt16 × UInt32))
    (bios cartridge : Rom) : Checked Coverage := do
  let biosTouched ← bios.touchedCount
  let cartridgeTouched ← cartridge.touchedCount
  .ok
    { biosTouched
      biosLength := bios.length.toNat
      cartridgeTouched
      cartridgeLength := cartridge.length.toNat
      executed := audit.executedCount
      discrepancies := Tally.sum order
      worst := Tally.rank order }

/-- Draw up the coverage report of an audit and two images. -/
def Audit.coverage (audit : Audit) (bios cartridge : Rom) : Checked Coverage :=
  audit.coverageInOrder audit.discrepancies.entries bios cartridge

end Handheld
