/-
# Errors

What can go wrong for a user of the machine, as opposed to a fault of the
model: an image that does not fit, a snapshot that cannot be read, a malformed
cycle table, or a stack that has left working memory.
-/

import Handheld.Text.Digits
import Handheld.Wire.Basic

namespace Handheld

/-- An error that an operation of the machine reports. -/
inductive Error
  | emptyBios
  | cartridgeTooLarge (length : Nat)
  | snapshot (failure : Wire.Failure)
  | cycleTable (line : Nat) (reason : String)
  | stackOverflow (stackPointer : UInt16) (timestamp : UInt64)
  deriving DecidableEq, Repr

/-- The wording of an error. -/
def Error.message : Error → String
  | .emptyBios => "BIOS image is empty"
  | .cartridgeTooLarge length =>
    s!"cartridge image of {length} bytes exceeds the 2 MiB window"
  | .snapshot failure => "snapshot error: " ++ failure.message
  | .cycleTable line reason => s!"cycle table line {line}: {reason}"
  | .stackOverflow stackPointer timestamp =>
    s!"stack overflow, SP=0x{Digits.hex 4 stackPointer.toNat} at timestamp {timestamp}"

end Handheld
