/-
# Clocks

Time is counted in half cycles of the core clock. A slower real-time oscillator
toggles every `period` half cycles, and two dividers of the same timestamp pace
the seconds counter and the refresh controller.
-/

import Handheld.Fault

namespace Handheld

/-- The real-time oscillator: its output and the timestamp of its next edge. -/
structure Oscillator where
  period : UInt64
  next : UInt64
  level : Bool
  deriving DecidableEq, Repr

namespace Oscillator

/-- The ratio of the two clocks rounded to the nearest integer, halves up, and
never zero. A real-time clock of zero counts as one. -/
def periodOf (coreHz realTimeHz : UInt32) : UInt64 :=
  let slow := max realTimeHz.toNat 1
  UInt64.ofNat (max ((coreHz.toNat + slow / 2) / slow) 1)

/-- A low output with its first edge one period away. -/
def start (coreHz realTimeHz : UInt32) : Oscillator :=
  let period := periodOf coreHz realTimeHz
  ⟨period, period, false⟩

/-- Toggle the output if `timestamp` has reached the next edge, and give the
new level if so. The edge after it is one period from `timestamp`. -/
def due (oscillator : Oscillator) (timestamp : UInt64) :
    Checked (Option Bool × Oscillator) :=
  if timestamp < oscillator.next then .ok (none, oscillator)
  else do
    let next ← add64 timestamp oscillator.period
    let level := !oscillator.level
    .ok (some level, { oscillator with next, level })

end Oscillator

/-- Whether the seconds divider fires at a timestamp. An interval of zero
switches it off. -/
def onSecondsInterval (timestamp interval : UInt64) : Bool :=
  interval != 0 && timestamp % interval == 0

/-- Whether the refresh divider fires. It runs on whole core cycles, one ahead
of the timestamp; an interval of zero switches it off. -/
def onRefreshInterval (timestamp interval : UInt64) : Bool :=
  interval != 0 && (timestamp / 2 + 1) % interval == 0

end Handheld
