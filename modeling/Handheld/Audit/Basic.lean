/-
# The timing audit

The audit counts the cycles of every instruction, compares the count with a
cycle table on the instruction's last cycle, and keeps book of the opcodes that
have been executed and of those that disagreed. It also collects what the core
complains about. It watches only: nothing on the board depends on it, except
that a machine halts when the stack pointer has left working memory.
-/

import Handheld.Audit.CycleTable
import Handheld.Audit.Tally
import Handheld.Bitmap
import Handheld.Core.Signals

namespace Handheld

/-- An instruction that took another number of cycles than the table says. -/
structure Discrepancy where
  opcode : UInt16
  expected : CycleEntry
  observed : UInt8
  timestamp : UInt64
  deriving DecidableEq, Repr

/-- The wording of a discrepancy. -/
def Discrepancy.text (discrepancy : Discrepancy) : String :=
  "Discrepancy found in number of cycles of instruction 0x" ++
    Digits.hex 1 discrepancy.opcode.toNat ++
    s!": {discrepancy.observed}, {discrepancy.expected.cycles}" ++
    s!", timestamp: {discrepancy.timestamp}"

/-- Something wrong with the core in the current cycle. -/
inductive Complaint
  | instruction (opcode : UInt16) (address : UInt32)
  | addressing (mode : UInt8)
  | jump (target : UInt8)
  | dataOut
  | movSrc
  | write
  | alu
  | aluDecPack
  | divZero
  | stackOverflow (stackPointer : UInt16)
  deriving DecidableEq, Repr

namespace Complaint

/-- The wording of a complaint. -/
def text : Complaint → String
  | .instruction opcode address =>
    s!"Instruction 0x{Digits.hex 1 opcode.toNat} not implemented at 0x{Digits.hex 1 address.toNat}"
  | .addressing mode => s!"Addressing not implemented error: 0x{Digits.hex 1 mode.toNat}"
  | .jump target => s!"Jump not implemented error, 0x{Digits.hex 1 target.toNat}"
  | .dataOut => "Data-out not implemented error"
  | .movSrc => "Mov src not implemented error"
  | .write => "Write not implemented error"
  | .alu => "Alu not implemented error"
  | .aluDecPack => "Alu decimal and packed operations not implemented error"
  | .divZero => "Division by zero exception not implemented error"
  | .stackOverflow stackPointer => s!"Stack overflow, SP=0x{Digits.hex 4 stackPointer.toNat}"

/-- The name of a kind of complaint. -/
def name : Complaint → String
  | .instruction .. => "InstructionNotImplemented"
  | .addressing _ => "Addressing"
  | .jump _ => "Jump"
  | .dataOut => "DataOut"
  | .movSrc => "MovSrc"
  | .write => "Write"
  | .alu => "Alu"
  | .aluDecPack => "AluDecPack"
  | .divZero => "DivZero"
  | .stackOverflow _ => "StackOverflow"

/-- The content of a complaint, with the names of its parts. -/
def parts : Complaint → List (String × Nat)
  | .instruction opcode address => [("opcode", opcode.toNat), ("address", address.toNat)]
  | .addressing mode => [("mode", mode.toNat)]
  | .jump target => [("target", target.toNat)]
  | .stackOverflow stackPointer => [("sp", stackPointer.toNat)]
  | .dataOut | .movSrc | .write | .alu | .aluDecPack | .divZero => []

/-- A complaint as a term: its name, and its content in braces. -/
def term (complaint : Complaint) : String :=
  match complaint.parts with
  | [] => complaint.name
  | parts =>
    complaint.name ++ " \x7b " ++
      ", ".intercalate (parts.map fun (label, value) => s!"{label}: {value}") ++ " \x7d"

/-- The complaints of a cycle. The data-out line counts only in the program-load
phase and everything else only outside it. -/
def ofFrame (pins : Pins) (probes : Probes) (stackLimit : UInt16) : List Complaint :=
  let line (lines : FaultLines) (complaint : Complaint) : List Complaint :=
    if probes.faults.raised lines then [complaint] else []
  if pins.pl then line .dataOut .dataOut
  else
    (if probes.state == Probes.executing && !probes.busAck && probes.microaddress == 0 &&
        probes.extendedOpcode != 0x1AE then
      [.instruction probes.extendedOpcode probes.topAddress] else []) ++
    line .addressing (.addressing ((probes.microOp &&& 0x3F00000) >>> 20).toUInt8) ++
    line .jump (.jump ((probes.microOp &&& 0x7C000) >>> 14).toUInt8) ++
    line .movSrc .movSrc ++
    line .write .write ++
    line .alu .alu ++
    line .aluDecPack .aluDecPack ++
    line .divZero .divZero ++
    (if stackLimit < probes.stackPointer then [.stackOverflow probes.stackPointer] else [])

end Complaint

/-- The books of the audit. -/
structure Audit where
  table : CycleTable
  cycles : UInt8
  inInterrupt : Bool
  executed : Array UInt64
  discrepancies : Tally
  complaints : UInt64
  stackLimit : UInt16

/-- What the audit found at the end of an instruction. -/
structure Boundary where
  opcode : UInt16
  cycles : UInt8
  timestamp : UInt64
  discrepancy : Option Discrepancy
  deriving DecidableEq, Repr

namespace Audit

/-- Empty books. -/
def initial (table : CycleTable) (stackLimit : UInt16) : Audit :=
  ⟨table, 0, false, Bitmap.empty CycleTable.slots, .empty, 0, stackLimit⟩

/-- Whether a cycle is the last of an instruction. -/
def isBoundary (pins : Pins) (probes : Probes) : Bool :=
  pins.sync && !pins.pl && probes.isBoundary && !pins.iack && !probes.busAck

/-- Enter an opcode as executed; numbers without a slot are not opcodes. -/
def markExecuted (audit : Audit) (opcode : UInt16) : Checked Audit :=
  if opcode.toNat < CycleTable.slots then do
    let executed ← Bitmap.insert audit.executed opcode.toNat
    .ok { audit with executed }
  else .ok audit

/-- Compare the cycles since the last fetch with the table, at the end of an
instruction. The boundary that closes an interrupt entry is passed over. -/
def observe (audit : Audit) (pins : Pins) (probes : Probes) (timestamp : UInt64) :
    Checked (Option Boundary × Audit) :=
  if !isBoundary pins probes then .ok (none, audit)
  else if audit.inInterrupt then .ok (none, { audit with inInterrupt := false })
  else do
    let opcode := probes.extendedOpcode
    let audit ← audit.markExecuted opcode
    let expected := audit.table.get opcode
    if !expected.isKnown || expected.admits audit.cycles then
      .ok (some ⟨opcode, audit.cycles, timestamp, none⟩, audit)
    else
      let discrepancies ← audit.discrepancies.increment opcode
      let discrepancy := ⟨opcode, expected, audit.cycles, timestamp⟩
      .ok (some ⟨opcode, audit.cycles, timestamp, some discrepancy⟩,
        { audit with discrepancies })

/-- Whether a cycle enters an interrupt. Acknowledges up to the guard time do
not count. -/
def isEntry (pins : Pins) (timestamp guardTime : UInt64) : Bool :=
  guardTime < timestamp && pins.iack && !pins.pl && pins.sync

/-- Note an interrupt entry, and say whether there was one. -/
def enterInterrupt (audit : Audit) (pins : Pins) (timestamp guardTime : UInt64) :
    Bool × Audit :=
  if isEntry pins timestamp guardTime then (true, { audit with inInterrupt := true })
  else (false, audit)

/-- Count a cycle: a fetch starts over, stalled cycles do not count, and the
count stays at 255. -/
def countCycle (audit : Audit) (pins : Pins) (probes : Probes) : Audit :=
  let start := if pins.sync && pins.pl then 0 else audit.cycles
  let cycles := if pins.pl && !probes.busAck && start != 255 then start + 1 else start
  { audit with cycles }

/-- Collect and count the complaints of a cycle. -/
def collectComplaints (audit : Audit) (pins : Pins) (probes : Probes) :
    Checked (List Complaint × Audit) := do
  let found := Complaint.ofFrame pins probes audit.stackLimit
  let complaints ← add64 audit.complaints (UInt64.ofNat found.length)
  .ok (found, { audit with complaints })

/-- Whether an opcode has been executed. -/
def isExecuted (audit : Audit) (opcode : UInt16) : Checked Bool :=
  if opcode.toNat < CycleTable.slots then Bitmap.contains audit.executed opcode.toNat
  else .ok false

/-- The number of opcodes executed. -/
def executedCount (audit : Audit) : Nat :=
  Bitmap.count audit.executed

/-- The number of discrepancies found. -/
def discrepancyCount (audit : Audit) : Nat :=
  audit.discrepancies.total

end Audit

end Handheld
