/-
# Scripted cores

A scripted core replays a queue of frames, one per clock cycle, and records the
bytes that the bus hands back. A frame is taken on a rising clock edge while
reset is released; after the last one the core idles.
-/

import Handheld.Core.Interface

namespace Handheld

/-- The lines of a scripted core, what is left of its script, and its records. -/
structure ScriptedCore where
  script : List Frame := []
  current : Frame := {}
  clock : Bool := false
  reset : Bool := false
  realTimeClock : Bool := false
  realTimeEdges : UInt64 := 0
  keys : UInt8 := 0
  /-- Every address and byte served, the latest first. -/
  served : List (UInt32 × UInt8) := []
  lcd : Option (Array UInt8) := none
  contrast : Option UInt8 := none
  deriving DecidableEq

namespace ScriptedCore

/-- Idle cycles. -/
def idle (cycles : Nat) : List Frame :=
  List.replicate cycles {}

/-- A bus read. -/
def read (address : UInt32) : List Frame :=
  [{ pins := { address, busStatus := .memRead } }]

/-- A bus write. -/
def write (address : UInt32) (data : UInt8) : List Frame :=
  [{ pins := { address, busStatus := .memWrite, write := true, dataOut := data } }]

/-- An instruction: a fetch, `cycles - 1` more cycles, and the closing boundary
that reports the opcode. -/
def instruction (opcode : UInt16) (cycles : Nat) : List Frame :=
  [{ pins := { pl := true, sync := true } }] ++
    List.replicate (cycles - 1) { pins := { pl := true } } ++
    [{ pins := { sync := true },
       probes := { extendedOpcode := opcode, microOp := Probes.boundaryBit } }]

/-- A pulse of one cycle on the render-done line. -/
def renderDone : List Frame :=
  [{ probes := { irqRenderDone := true } }, {}]

/-- Add frames at the end of the script. -/
def append (core : ScriptedCore) (frames : List Frame) : ScriptedCore :=
  { core with script := core.script ++ frames }

/-- Expose display memory and a contrast. -/
def withLcd (core : ScriptedCore) (planar : Array UInt8) (contrast : UInt8) : ScriptedCore :=
  { core with lcd := some planar, contrast := some contrast }

/-- The number of frames left. -/
def remaining (core : ScriptedCore) : Nat :=
  core.script.length

/-- Every address and byte served, in order. -/
def reads (core : ScriptedCore) : List (UInt32 × UInt8) :=
  core.served.reverse

/-- Drive the clock; a rising edge outside reset takes the next frame. -/
def setClock (level : Bool) (core : ScriptedCore) : ScriptedCore :=
  if level && !core.clock && !core.reset then
    match core.script with
    | [] => { core with current := {}, clock := level }
    | frame :: script => { core with script, current := frame, clock := level }
  else { core with clock := level }

/-- Drive the reset line; while it is high the core shows nothing. -/
def setReset (level : Bool) (core : ScriptedCore) : ScriptedCore :=
  { core with reset := level, current := if level then {} else core.current }

/-- Drive the real-time clock and count its edges. -/
def setRealTimeClock (level : Bool) (core : ScriptedCore) : ScriptedCore :=
  { core with
    realTimeEdges :=
      if level != core.realTimeClock then core.realTimeEdges + 1 else core.realTimeEdges
    realTimeClock := level }

/-- Serve a byte for the current address. -/
def setDataIn (data : UInt8) (core : ScriptedCore) : ScriptedCore :=
  { core with served := (core.current.pins.address, data) :: core.served }

instance : Core ScriptedCore where
  setClock := setClock
  setReset := setReset
  setRealTimeClock := setRealTimeClock
  setDataIn := setDataIn
  setKeys keys core := { core with keys }
  settle core := core
  pins core := core.current.pins
  probes core := core.current.probes
  lcdMemory := ScriptedCore.lcd
  lcdContrast := ScriptedCore.contrast
  dataNotices data core := [.scriptServed core.current.pins.address data]

end ScriptedCore

end Handheld
