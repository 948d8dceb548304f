/-
# Wire forms of the machine's types

Records are written as their fields in order of declaration, sets of flags as
one byte, and a tally as its entries. An image is written without its bytes.
-/

import Handheld.Board.Basic
import Handheld.Wire.Basic

namespace Handheld

namespace Wire

instance : Wire Region := alternative
instance : Wire BusStatus := alternative
instance : Wire Direction := alternative
instance : Wire RomKind := alternative
instance : Wire Orientation := alternative
instance : Wire FrameSource := alternative
instance : Wire RefreshTick := alternative

instance : Wire Keys := along Keys.bits Keys.mk
instance : Wire FaultLines := along FaultLines.bits FaultLines.mk
instance : Wire Interrupt.Sources := along Interrupt.Sources.bits Interrupt.Sources.mk

instance : Wire Lcd.Command where
  write command :=
    write (UInt32.ofNat command.number) ++
      match command.operand with
      | .nothing => []
      | .byte value => write value
      | .flag on => write on
  read bytes := do
    let ((n : UInt32), rest) ← read bytes
    match Lcd.Command.forms[n.toNat]? with
    | none => .error .noSuchAlternative
    | some (.bare _ command) => .ok (command, rest)
    | some (.ofByte _ build) => do
      let (value, rest) ← read rest
      .ok (build value, rest)
    | some (.ofFlag _ build) => do
      let (on, rest) ← read rest
      .ok (build on, rest)

instance : Wire Transaction :=
  along (fun t => (t.address, t.data, t.direction))
    (fun (address, data, direction) => { address, data, direction })

instance : Wire Pins :=
  along (fun p => (p.address, p.busStatus, p.write, p.dataOut, p.pl, p.sync, p.iack))
    (fun (address, busStatus, write, dataOut, pl, sync, iack) =>
      { address, busStatus, write, dataOut, pl, sync, iack })

instance : Wire Probes :=
  along
    (fun p => (p.state, p.microaddress, p.extendedOpcode, p.topAddress, p.microOp, p.busAck,
      p.faults, p.stackPointer, p.codeBank, p.irqRenderDone, p.irqCopyComplete))
    (fun (state, microaddress, extendedOpcode, topAddress, microOp, busAck, faults,
        stackPointer, codeBank, irqRenderDone, irqCopyComplete) =>
      { state, microaddress, extendedOpcode, topAddress, microOp, busAck, faults,
        stackPointer, codeBank, irqRenderDone, irqCopyComplete })

instance : Wire Settings :=
  along
    (fun s => (s.orientation, s.frameSource, s.stepsPerFrame, s.resetHalfCycles,
      s.irqGuardHalfCycles, s.coreClockHz, s.realTimeClockHz, s.secondsTickHalfCycles,
      s.refreshTickCycles, s.stackLimit, s.forwardKeys))
    (fun (orientation, frameSource, stepsPerFrame, resetHalfCycles, irqGuardHalfCycles,
        coreClockHz, realTimeClockHz, secondsTickHalfCycles, refreshTickCycles, stackLimit,
        forwardKeys) =>
      { orientation, frameSource, stepsPerFrame, resetHalfCycles, irqGuardHalfCycles,
        coreClockHz, realTimeClockHz, secondsTickHalfCycles, refreshTickCycles, stackLimit,
        forwardKeys })

instance : Wire SecondsCounter :=
  along (fun s => (s.control, s.count)) (fun (control, count) => { control, count })

instance : Wire RefreshController :=
  along (fun r => (r.mode, r.rate, r.rateMatch, r.counter, r.map))
    (fun (mode, rate, rateMatch, counter, map) => { mode, rate, rateMatch, counter, map })

instance : Wire Lcd.Controller :=
  along (fun l => (l.contrast, l.contrastPending))
    (fun (contrast, contrastPending) => { contrast, contrastPending })

instance : Wire KeyPad :=
  along KeyPad.pressed KeyPad.mk

instance : Wire RegisterBank :=
  along (fun r => (r.cells, r.seconds, r.refresh, r.lcd, r.keyPad))
    (fun (cells, seconds, refresh, lcd, keyPad) => { cells, seconds, refresh, lcd, keyPad })

instance : Wire Ram :=
  along Ram.cells Ram.mk

instance : Wire Rom :=
  along (fun r => (r.kind, r.length, r.touched))
    (fun (kind, length, touched) => { kind, buffer := #[], length, touched })

instance : Wire CycleEntry :=
  along (fun e => (e.cycles, e.branchCycles)) (fun (cycles, branchCycles) => { cycles, branchCycles })

instance : Wire CycleTable :=
  along CycleTable.entries CycleTable.mk

instance : Wire Tally :=
  along (fun t => t.entries.toArray) (fun entries => Tally.ofList entries.toList)

instance : Wire Audit :=
  along
    (fun a => (a.table, a.cycles, a.inInterrupt, a.executed, a.discrepancies, a.complaints,
      a.stackLimit))
    (fun (table, cycles, inInterrupt, executed, discrepancies, complaints, stackLimit) =>
      { table, cycles, inInterrupt, executed, discrepancies, complaints, stackLimit })

instance : Wire Screen :=
  along (fun s => (s.pixels, s.orientation, s.frames, s.redrawRequested))
    (fun (pixels, orientation, frames, redrawRequested) =>
      { pixels, orientation, frames, redrawRequested })

instance : Wire Incidents :=
  along
    (fun i => (i.illegalWrites, i.droppedWrites, i.unknownWrites, i.timerReads, i.bankHits,
      i.lcdHazards))
    (fun (illegalWrites, droppedWrites, unknownWrites, timerReads, bankHits, lcdHazards) =>
      { illegalWrites, droppedWrites, unknownWrites, timerReads, bankHits, lcdHazards })

instance : Wire Oscillator :=
  along (fun o => (o.period, o.next, o.level)) (fun (period, next, level) => { period, next, level })

instance : Wire EdgeDetector :=
  along EdgeDetector.level EdgeDetector.mk

instance : Wire Board :=
  along
    (fun b => (b.ram, b.bios, b.cartridge, b.registers, b.audit, b.screen, b.incidents,
      b.oscillator, b.renderDone, b.copyComplete, b.ticks))
    (fun (ram, bios, cartridge, registers, audit, screen, incidents, oscillator, renderDone,
        copyComplete, ticks) =>
      { ram, bios, cartridge, registers, audit, screen, incidents, oscillator, renderDone,
        copyComplete, ticks })

end Wire

end Handheld
