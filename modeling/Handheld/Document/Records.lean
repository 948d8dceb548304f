/-
# Document forms of the machine's types

The names of fields and alternatives are those of the published form.
-/

import Handheld.Board.Basic
import Handheld.Document.Basic

namespace Handheld.Document

instance : Documented Region := alternative
instance : Documented BusStatus := alternative
instance : Documented Direction := alternative
instance : Documented RomKind := alternative
instance : Documented Orientation := alternative
instance : Documented FrameSource := alternative
instance : Documented RefreshTick := alternative

instance : Documented Keys := flagSet
instance : Documented FaultLines := flagSet
instance : Documented Interrupt.Sources := flagSet

instance : Documented Lcd.Command where
  toDocument command :=
    match command.operand with
    | .nothing => .text command.name
    | .byte value => .object [(command.name, toDocument value)]
    | .flag on => .object [(command.name, toDocument on)]
  ofDocument? document := do
    let (name, content) ← tagged? document
    match Lcd.Command.forms.find? fun form => form.name == name with
    | none => none
    | some (.bare _ command) =>
      match content with
      | .null => some command
      | _ => none
    | some (.ofByte _ build) => (ofDocument? content).map build
    | some (.ofFlag _ build) => (ofDocument? content).map build

instance : Documented Transaction where
  toDocument t := .object
    [ ("addr", toDocument t.address), ("data", toDocument t.data),
      ("direction", toDocument t.direction) ]
  ofDocument? document := do
    match ← document.fields? ["addr", "data", "direction"] with
    | [address, data, direction] =>
      some ⟨← ofDocument? address, ← ofDocument? data, ← ofDocument? direction⟩
    | _ => none

instance : Documented Pins where
  toDocument p := .object
    [ ("address", toDocument p.address), ("bus_status", toDocument p.busStatus),
      ("write", toDocument p.write), ("data_out", toDocument p.dataOut),
      ("pl", toDocument p.pl), ("sync", toDocument p.sync), ("iack", toDocument p.iack) ]
  ofDocument? document := do
    match ← document.fields?
      ["address", "bus_status", "write", "data_out", "pl", "sync", "iack"] with
    | [address, busStatus, write, dataOut, pl, sync, iack] =>
      some ⟨← ofDocument? address, ← ofDocument? busStatus, ← ofDocument? write,
        ← ofDocument? dataOut, ← ofDocument? pl, ← ofDocument? sync, ← ofDocument? iack⟩
    | _ => none

instance : Documented Probes where
  toDocument p := .object
    [ ("state", toDocument p.state), ("microaddress", toDocument p.microaddress),
      ("extended_opcode", toDocument p.extendedOpcode),
      ("top_address", toDocument p.topAddress), ("micro_op", toDocument p.microOp),
      ("bus_ack", toDocument p.busAck), ("faults", toDocument p.faults),
      ("sp", toDocument p.stackPointer), ("cb", toDocument p.codeBank),
      ("irq_render_done", toDocument p.irqRenderDone),
      ("irq_copy_complete", toDocument p.irqCopyComplete) ]
  ofDocument? document := do
    match ← document.fields?
      [ "state", "microaddress", "extended_opcode", "top_address", "micro_op", "bus_ack",
        "faults", "sp", "cb", "irq_render_done", "irq_copy_complete" ] with
    | [state, microaddress, extendedOpcode, topAddress, microOp, busAck, faults,
        stackPointer, codeBank, irqRenderDone, irqCopyComplete] =>
      some ⟨← ofDocument? state, ← ofDocument? microaddress, ← ofDocument? extendedOpcode,
        ← ofDocument? topAddress, ← ofDocument? microOp, ← ofDocument? busAck,
        ← ofDocument? faults, ← ofDocument? stackPointer, ← ofDocument? codeBank,
        ← ofDocument? irqRenderDone, ← ofDocument? irqCopyComplete⟩
    | _ => none

instance : Documented Settings where
  toDocument s := .object
    [ ("orientation", toDocument s.orientation), ("frame_source", toDocument s.frameSource),
      ("steps_per_frame", toDocument s.stepsPerFrame),
      ("reset_half_cycles", toDocument s.resetHalfCycles),
      ("irq_guard_half_cycles", toDocument s.irqGuardHalfCycles),
      ("core_clock_hz", toDocument s.coreClockHz),
      ("rt_clock_hz", toDocument s.realTimeClockHz),
      ("seconds_tick_half_cycles", toDocument s.secondsTickHalfCycles),
      ("prc_tick_cycles", toDocument s.refreshTickCycles),
      ("stack_limit", toDocument s.stackLimit),
      ("forward_keys_to_core", toDocument s.forwardKeys) ]
  ofDocument? document := do
    match ← document.fields?
      [ "orientation", "frame_source", "steps_per_frame", "reset_half_cycles",
        "irq_guard_half_cycles", "core_clock_hz", "rt_clock_hz", "seconds_tick_half_cycles",
        "prc_tick_cycles", "stack_limit", "forward_keys_to_core" ] with
    | [orientation, frameSource, stepsPerFrame, resetHalfCycles, irqGuardHalfCycles,
        coreClockHz, realTimeClockHz, secondsTickHalfCycles, refreshTickCycles, stackLimit,
        forwardKeys] =>
      some ⟨← ofDocument? orientation, ← ofDocument? frameSource, ← ofDocument? stepsPerFrame,
        ← ofDocument? resetHalfCycles, ← ofDocument? irqGuardHalfCycles,
        ← ofDocument? coreClockHz, ← ofDocument? realTimeClockHz,
        ← ofDocument? secondsTickHalfCycles, ← ofDocument? refreshTickCycles,
        ← ofDocument? stackLimit, ← ofDocument? forwardKeys⟩
    | _ => none

instance : Documented CycleEntry where
  toDocument e := .object
    [("cycles", toDocument e.cycles), ("branch_cycles", toDocument e.branchCycles)]
  ofDocument? document := do
    match ← document.fields? ["cycles", "branch_cycles"] with
    | [cycles, branchCycles] => some ⟨← ofDocument? cycles, ← ofDocument? branchCycles⟩
    | _ => none

instance : Documented Incidents where
  toDocument i := .object
    [ ("illegal_writes", toDocument i.illegalWrites),
      ("dropped_writes", toDocument i.droppedWrites),
      ("unknown_writes", toDocument i.unknownWrites), ("timer_reads", toDocument i.timerReads),
      ("bank_hits", toDocument i.bankHits), ("lcd_hazards", toDocument i.lcdHazards) ]
  ofDocument? document := do
    match ← document.fields?
      [ "illegal_writes", "dropped_writes", "unknown_writes", "timer_reads", "bank_hits",
        "lcd_hazards" ] with
    | [illegalWrites, droppedWrites, unknownWrites, timerReads, bankHits, lcdHazards] =>
      some ⟨← ofDocument? illegalWrites, ← ofDocument? droppedWrites,
        ← ofDocument? unknownWrites, ← ofDocument? timerReads, ← ofDocument? bankHits,
        ← ofDocument? lcdHazards⟩
    | _ => none

instance : Documented SecondsCounter where
  toDocument s := .object [("control", toDocument s.control), ("count", toDocument s.count)]
  ofDocument? document := do
    match ← document.fields? ["control", "count"] with
    | [control, count] => some ⟨← ofDocument? control, ← ofDocument? count⟩
    | _ => none

instance : Documented RefreshController where
  toDocument r := .object
    [ ("mode", toDocument r.mode), ("rate", toDocument r.rate),
      ("rate_match", toDocument r.rateMatch), ("counter", toDocument r.counter),
      ("map", toDocument r.map) ]
  ofDocument? document := do
    match ← document.fields? ["mode", "rate", "rate_match", "counter", "map"] with
    | [mode, rate, rateMatch, counter, map] =>
      some ⟨← ofDocument? mode, ← ofDocument? rate, ← ofDocument? rateMatch,
        ← ofDocument? counter, ← ofDocument? map⟩
    | _ => none

instance : Documented Lcd.Controller where
  toDocument l := .object
    [("contrast", toDocument l.contrast), ("contrast_pending", toDocument l.contrastPending)]
  ofDocument? document := do
    match ← document.fields? ["contrast", "contrast_pending"] with
    | [contrast, contrastPending] =>
      some ⟨← ofDocument? contrast, ← ofDocument? contrastPending⟩
    | _ => none

instance : Documented KeyPad where
  toDocument k := .object [("pressed", toDocument k.pressed)]
  ofDocument? document := do
    match ← document.fields? ["pressed"] with
    | [pressed] => some ⟨← ofDocument? pressed⟩
    | _ => none

instance : Documented Oscillator where
  toDocument o := .object
    [("period", toDocument o.period), ("next", toDocument o.next), ("level", toDocument o.level)]
  ofDocument? document := do
    match ← document.fields? ["period", "next", "level"] with
    | [period, next, level] =>
      some ⟨← ofDocument? period, ← ofDocument? next, ← ofDocument? level⟩
    | _ => none

instance : Documented EdgeDetector where
  toDocument e := .object [("level", toDocument e.level)]
  ofDocument? document := do
    match ← document.fields? ["level"] with
    | [level] => some ⟨← ofDocument? level⟩
    | _ => none

end Handheld.Document
