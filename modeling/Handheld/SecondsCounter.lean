/-
# The seconds counter

A 24 bit counter with an enable bit and a reset bit. The reset bit wins over an
increment of the same cycle and holds the counter at zero while it is set.
-/

import Handheld.Fault

namespace Handheld

/-- The control bits and the count. -/
structure SecondsCounter where
  control : UInt8
  count : UInt32
  deriving DecidableEq, Repr

namespace SecondsCounter

/-- Disabled, at zero. -/
def initial : SecondsCounter := ⟨0, 0⟩

/-- Write the control register; only the enable and reset bits are kept. -/
def setControl (counter : SecondsCounter) (data : UInt8) : SecondsCounter :=
  { counter with control := data &&& 0b11 }

/-- Byte `index` of the count, the least significant first. Beyond the third
byte the third is meant. -/
def byte (counter : SecondsCounter) (index : Nat) : UInt8 :=
  (counter.count >>> UInt32.ofNat (8 * min index 2)).toUInt8

/-- Whether the counter runs. -/
def isEnabled (counter : SecondsCounter) : Bool :=
  counter.control &&& 0b01 != 0

/-- Whether the counter is held at zero. -/
def isHeld (counter : SecondsCounter) : Bool :=
  counter.control &&& 0b10 != 0

/-- One core cycle, of which `onInterval` says whether a second has passed. -/
def tick (counter : SecondsCounter) (onInterval : Bool) : Checked SecondsCounter := do
  let count ←
    if counter.isEnabled && onInterval then do
      let next ← add32 counter.count 1
      .ok (next &&& 0xFFFFFF)
    else .ok counter.count
  .ok { counter with count := if counter.isHeld then 0 else count }

end SecondsCounter

end Handheld
