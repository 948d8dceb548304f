/-
# Settings

What a host chooses once, when it builds a machine.
-/

import Handheld.Lcd.Screen

namespace Handheld

/-- Which event hands a finished frame to the screen. -/
inductive FrameSource
  /-- Frame ticks of the refresh controller. -/
  | refreshController
  /-- Rising edges of the core's render-done line. -/
  | coreRenderDone
  deriving DecidableEq, Repr, Inhabited

instance : Enumeration FrameSource where
  members := [.refreshController, .coreRenderDone]
  name
    | .refreshController => "RefreshController"
    | .coreRenderDone => "CoreRenderDone"

/-- The settings of a machine. Times are in half cycles of the core clock unless
the name says cycles. -/
structure Settings where
  orientation : Orientation := .topDown
  frameSource : FrameSource := .refreshController
  stepsPerFrame : UInt32 := 150000
  /-- Reset is held until the timestamp reaches this. -/
  resetHalfCycles : UInt64 := 8
  /-- Interrupt acknowledges up to this timestamp are not interrupt entries. -/
  irqGuardHalfCycles : UInt64 := 258
  coreClockHz : UInt32 := 4000000
  realTimeClockHz : UInt32 := 32768
  secondsTickHalfCycles : UInt64 := 4000000
  refreshTickCycles : UInt64 := 855
  stackLimit : UInt16 := 0x2000
  /-- Whether the keys are also wired to the core. -/
  forwardKeys : Bool := true
  deriving DecidableEq, Repr

end Handheld
