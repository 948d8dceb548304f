/-
# Interrupt latches

A latch collects the interrupts that have occurred. Writing a one to a latched
bit acknowledges it.
-/

import Handheld.FlagSet

namespace Handheld.Interrupt

/-- Clear every latched bit whose bit in `mask` is set. -/
def acknowledge (latched mask : UInt8) : UInt8 :=
  latched &&& ~~~mask

/-- Latch every bit of `mask`. -/
def raise (latched mask : UInt8) : UInt8 :=
  latched ||| mask

/-- The sources of the first latch that the board raises itself. -/
structure Sources where
  bits : UInt8
  deriving DecidableEq, Repr

namespace Sources

/-- The core has finished rendering. -/
def renderDone : Sources := ⟨0x40⟩

/-- The core has finished copying to the panel. -/
def copyComplete : Sources := ⟨0x80⟩

instance : FlagSet Sources where
  names := [("copy_complete", copyComplete.bits), ("render_done", renderDone.bits)]
  bits := Sources.bits
  ofBits := Sources.mk

end Sources

end Handheld.Interrupt
