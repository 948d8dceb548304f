/-
# Steps

A machine advances one clock cycle at a time. In a step the clock rises and
falls, the core's frame is sampled, the board does its housekeeping, the audit
looks at the frame, and at last the bus transaction that the frame asks for is
carried out. A stack pointer beyond its limit halts the machine in the middle of
the step, before the transaction, until the next reset.
-/

import Handheld.Board.Notices
import Handheld.Machine.Basic

namespace Handheld

/-- The stack pointer has left working memory. -/
structure StackOverflow where
  stackPointer : UInt16
  timestamp : UInt64
  deriving DecidableEq, Repr

/-- A stack overflow as an error of the machine. -/
def StackOverflow.toError (overflow : StackOverflow) : Error :=
  .stackOverflow overflow.stackPointer overflow.timestamp

/-- A bus transaction and what the board made of it. -/
inductive Transfer
  | none
  | read (bus : Transaction) (fetch : Fetch) (served : List Notice)
  | write (bus : Transaction) (store : Store)

/-- What happened in a step, as far as it got. -/
structure StepReport where
  timestamp : UInt64
  /-- What the core showed after the cycle. -/
  sampled : Frame
  edges : Edges
  /-- The frame shown because rendering was done. -/
  rendered : Option Presentation
  refresh : Option RefreshTick
  /-- The rate of the refresh controller after its tick. -/
  rate : UInt8
  /-- The frame shown because the refresh controller completed one. -/
  refreshed : Option Presentation
  complaints : List Complaint
  boundary : Option Boundary := none
  interruptEntry : Bool := false
  transfer : Transfer := .none

/-- The result of a step. A halted machine reports nothing. -/
structure Step (σ : Type) where
  report : Option StepReport
  overflow : Option StackOverflow
  machine : Machine σ

namespace Machine

variable {σ : Type} [Core σ]

/-- Drive the clock to a level and pass half a cycle; the core also sees the
real-time clock if that toggles. -/
def halfCycle (machine : Machine σ) (level : Bool) : Checked (Machine σ) := do
  let core := Core.settle (Core.setClock level machine.core)
  let (toggled, board) ← machine.board.halfCycle
  let core := match toggled with
    | some realTime => Core.settle (Core.setRealTimeClock realTime core)
    | none => core
  .ok { machine with core, board }

/-- Show a frame with what the core exposes, if `due`. -/
def capture (core : σ) (board : Board) (due : Bool) : Checked (Option Presentation × Board) :=
  if due then do
    let (presentation, board) ← board.present (Core.lcdMemory core) (Core.lcdContrast core)
    .ok (some presentation, board)
  else .ok (none, board)

/-- The board's housekeeping: interrupt lines, registers and frames. -/
def housekeep (core : σ) (settings : Settings) (sampled : Frame) (board : Board) :
    Checked (StepReport × Board) := do
  let timestamp := board.ticks
  let (edges, board) ← board.latchEdges sampled.probes
  let (rendered, board) ←
    capture core board (edges.renderDone && settings.frameSource = .coreRenderDone)
  let (refresh, board) ← board.tickRegisters settings
  let rate := board.registers.refresh.rate
  let (refreshed, board) ←
    capture core board (refresh = some .frame && settings.frameSource = .refreshController)
  let (complaints, audit) ← board.audit.collectComplaints sampled.pins sampled.probes
  .ok ({ timestamp, sampled, edges, rendered, refresh, rate, refreshed, complaints },
    { board with audit })

/-- The stack pointer among the complaints of a step. -/
def overflowOf (complaints : List Complaint) : Option UInt16 :=
  complaints.findSome? fun
    | .stackOverflow stackPointer => some stackPointer
    | _ => none

/-- Carry out the transaction that the core asks for. A read is served only
outside the program-load phase. -/
def transfer (machine : Machine σ) (sampled : Frame) : Checked (Transfer × Machine σ) :=
  let { pins, probes } := sampled
  match pins.busStatus with
  | .memRead =>
    if pins.pl then .ok (.none, machine)
    else do
      let (fetch, board) ← machine.board.fetch (.read pins.address) probes.codeBank
      let bus := (Transaction.read pins.address).withData fetch.data
      let served := Core.dataNotices fetch.data machine.core
      let core := Core.settle (Core.setDataIn fetch.data machine.core)
      .ok (.read bus fetch served, { machine with core, board, bus })
  | .memWrite =>
    if pins.write then do
      let bus := Transaction.write pins.address pins.dataOut
      let (store, board) ← machine.board.store bus
      .ok (.write bus store, { machine with board, bus })
    else .ok (.none, machine)
  | .idle | .irqRead => .ok (.none, machine)

/-- The rest of a step that did not overflow the stack: the audit of the frame,
the end of reset, and the bus transaction. -/
def finishStep (machine : Machine σ) (report : StepReport) :
    Checked (StepReport × Machine σ) := do
  let { core, board, settings, bus, running, haltedAt } := machine
  let { pins, probes } := report.sampled
  let timestamp := report.timestamp
  let (boundary, audit) ← board.audit.observe pins probes timestamp
  let core := if settings.resetHalfCycles ≤ timestamp then Core.setReset false core else core
  let (interruptEntry, audit) :=
    audit.enterInterrupt pins timestamp settings.irqGuardHalfCycles
  let board := { board with audit }
  let (transfer, machine) ←
    transfer ({ core, board, settings, bus, running, haltedAt } : Machine σ) report.sampled
  let { core, board, settings, bus, running, haltedAt } := machine
  let board := { board with audit := board.audit.countCycle pins probes }
  .ok ({ report with boundary, interruptEntry, transfer },
    { core, board, settings, bus, running, haltedAt })

/-- Advance one clock cycle. -/
def step (machine : Machine σ) : Checked (Step σ) :=
  match machine.haltedAt with
  | some stackPointer => .ok ⟨none, some ⟨stackPointer, machine.board.ticks⟩, machine⟩
  | none => do
    let machine ← machine.halfCycle true
    let machine ← machine.halfCycle false
    let sampled : Frame := ⟨Core.pins machine.core, Core.probes machine.core⟩
    let { core, board, settings, bus, running, haltedAt } := machine
    let (report, board) ← housekeep core settings sampled board
    match overflowOf report.complaints with
    | some stackPointer =>
      .ok ⟨some report, some ⟨stackPointer, report.timestamp⟩,
        { core, board, settings, bus, running, haltedAt := some stackPointer }⟩
    | none => do
      let (report, machine) ←
        finishStep { core, board, settings, bus, running, haltedAt } report
      .ok ⟨some report, none, machine⟩

end Machine

end Handheld
