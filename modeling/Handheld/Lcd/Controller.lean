/-
# The LCD control register

The byte after a set-contrast command is the contrast itself, whatever it would
otherwise mean. One pending bit carries that over from one write to the next.
-/

import Handheld.Lcd.Command

namespace Handheld.Lcd

/-- The lightest setting of the panel, and its setting at power-on. -/
def contrastMax : UInt8 := 0x20

/-- The contrast, and whether the next byte sets it. -/
structure Controller where
  contrast : UInt8
  contrastPending : Bool
  deriving DecidableEq, Repr

namespace Controller

/-- The state at power-on. -/
def initial : Controller :=
  ⟨contrastMax, false⟩

/-- Classify a control byte and follow the contrast protocol. -/
def command (controller : Controller) (data : UInt8) : Command × Controller :=
  if controller.contrastPending then
    let contrast := data &&& 0x3F
    (.contrastValue contrast, ⟨contrast, false⟩)
  else
    let command := Command.decode data
    (command, { controller with contrastPending := command = .setContrast })

end Controller

end Handheld.Lcd
