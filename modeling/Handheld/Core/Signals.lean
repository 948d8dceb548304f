/-
# What the core shows

After every evaluation the core's external pins and some of its internal
signals can be sampled. The internal ones serve the timing audit, the reports
of gaps in the core's implementation, and frame capture.
-/

import Handheld.Bus
import Handheld.KeyPad

namespace Handheld

/-- The lines on which the core reports something it does not implement. -/
structure FaultLines where
  bits : UInt8
  deriving DecidableEq, Repr

namespace FaultLines

/-- No line raised. -/
def none : FaultLines := ⟨0⟩

def addressing : FaultLines := ⟨0x01⟩
def jump : FaultLines := ⟨0x02⟩
def dataOut : FaultLines := ⟨0x04⟩
def movSrc : FaultLines := ⟨0x08⟩
def write : FaultLines := ⟨0x10⟩
def alu : FaultLines := ⟨0x20⟩
def aluDecPack : FaultLines := ⟨0x40⟩
def divZero : FaultLines := ⟨0x80⟩

instance : FlagSet FaultLines where
  names :=
    [ ("addressing", addressing.bits), ("jump", jump.bits), ("data_out", dataOut.bits),
      ("mov_src", movSrc.bits), ("write", write.bits), ("alu", alu.bits),
      ("alu_dec_pack", aluDecPack.bits), ("divzero", divZero.bits) ]
  bits := FaultLines.bits
  ofBits := FaultLines.mk

/-- Whether every line of `wanted` is raised. -/
def raised (lines wanted : FaultLines) : Bool :=
  lines.bits &&& wanted.bits == wanted.bits

end FaultLines

/-- External pins. `pl` marks the program-load phase, `sync` a fetch, and `iack`
an interrupt acknowledge. -/
structure Pins where
  address : UInt32 := 0
  busStatus : BusStatus := .idle
  write : Bool := false
  dataOut : UInt8 := 0
  pl : Bool := false
  sync : Bool := false
  iack : Bool := false
  deriving DecidableEq, Repr, Inhabited

/-- Internal signals. -/
structure Probes where
  state : UInt8 := 0
  microaddress : UInt16 := 0
  extendedOpcode : UInt16 := 0
  topAddress : UInt32 := 0
  microOp : UInt64 := 0
  busAck : Bool := false
  faults : FaultLines := .none
  stackPointer : UInt16 := 0
  /-- The code bank register. -/
  codeBank : UInt8 := 0
  irqRenderDone : Bool := false
  irqCopyComplete : Bool := false
  deriving DecidableEq, Repr, Inhabited

namespace Probes

/-- The bit of a micro-operation that marks the last one of an instruction. -/
def boundaryBit : UInt64 := 0x1000

/-- The sequencer state in which instructions execute. -/
def executing : UInt8 := 2

/-- Whether this is the last micro-operation of an instruction. -/
def isBoundary (probes : Probes) : Bool :=
  probes.microOp &&& boundaryBit != 0

end Probes

/-- Everything that the core shows at one moment. -/
structure Frame where
  pins : Pins := {}
  probes : Probes := {}
  deriving DecidableEq, Repr, Inhabited

end Handheld
