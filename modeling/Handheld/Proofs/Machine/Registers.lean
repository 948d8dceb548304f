/-
# What a step does to the registers

A step ticks the registers once, when both half cycles have passed and interrupts have been
latched, and the bus comes last. So a register that the core writes in a step is written
after the tick, and whatever is counted in registers can be followed by these two things.
-/

import Handheld.Proofs.Board.Memory
import Handheld.Proofs.Machine.Halting

namespace Handheld

open Checked

/-- The frame asks for a bus write at a line. -/
def Frame.Writes (frame : Frame) (line : Nat) : Prop :=
  frame.pins.busStatus = .memWrite ∧ frame.pins.write = true ∧ lineOf frame.pins.address = line

namespace Machine

variable {σ : Type} [Core σ] {machine after : Machine σ}

/-- The coming frame asks for a bus write at a line. -/
def Writes (machine : Machine σ) (line : Nat) : Prop :=
  ∃ frame, machine.comingFrame = .ok frame ∧ frame.Writes line

theorem registers_of_capture {core : σ} {board captured : Board} {due : Bool}
    {shown : Option Presentation} (done : capture core board due = .ok (shown, captured)) :
    captured.registers = board.registers ∧ captured.ticks = board.ticks := by
  rcases of_capture done with ⟨-, rfl⟩ | ⟨-, presentation, presented⟩
  · exact ⟨rfl, rfl⟩
  · obtain ⟨ram, screen, -, -, -, rfl⟩ := Board.of_present presented
    exact ⟨rfl, rfl⟩

/-- Housekeeping ticks the registers, in which interrupts may have been latched. -/
theorem registers_of_housekeep {core : σ} {settings : Settings} {sampled : Frame}
    {board kept : Board} {report : StepReport}
    (done : housekeep core settings sampled board = .ok (report, kept)) :
    ∃ cells tick,
      { board.registers with cells }.tick
          (onSecondsInterval board.ticks settings.secondsTickHalfCycles)
          (onRefreshInterval board.ticks settings.refreshTickCycles) =
        .ok (tick, kept.registers) := by
  obtain ⟨edges, latched, rendered, shown, refresh, ticked, refreshed, drawn, complaints, audit,
    latching, rendering, ticking, drawing, collecting, rfl, -⟩ := of_housekeep done
  obtain ⟨cells, -, rfl⟩ := Board.of_latchEdges latching
  obtain ⟨shownRegisters, shownTicks⟩ := registers_of_capture rendering
  obtain ⟨registers, tickDone, rfl⟩ := Board.of_tickRegisters ticking
  obtain ⟨drawnRegisters, -⟩ := registers_of_capture drawing
  rw [shownRegisters, shownTicks] at tickDone
  refine ⟨cells, refresh, ?_⟩
  show _ = Except.ok (refresh, drawn.registers)
  rw [drawnRegisters]
  exact tickDone

/-- A transaction writes one register at most. -/
theorem registers_of_transfer {sampled : Frame} {transfer : Transfer}
    (done : machine.transfer sampled = .ok (transfer, after)) :
    after.board.registers = machine.board.registers ∨
      ∃ offset data write, sampled.Writes (0x2000 + offset.toNat) ∧
        machine.board.registers.write offset data = .ok (write, after.board.registers) := by
  obtain ⟨core, board, bus, rfl, rfl | ⟨-, -, _, fetched⟩ | ⟨writing, strobed, _, stored⟩⟩ :=
    of_transfer done
  · exact .inl rfl
  · obtain ⟨bios, cartridge, incidents, -, -, rfl⟩ := Board.of_fetch fetched
    exact .inl rfl
  · obtain ⟨offset, write, line, written⟩ | ⟨-, same⟩ := Board.store_cases stored
    · obtain ⟨registers, incidents, registerWritten, -, rfl⟩ := Board.of_writeRegister written
      have latched : lineOf (Transaction.write sampled.pins.address sampled.pins.dataOut).address =
          lineOf sampled.pins.address := lineOf_and_busMask _
      exact .inr ⟨offset, _, write, ⟨writing, strobed, latched.symm.trans line⟩, registerWritten⟩
    · exact .inl same

/-- A step ticks the registers at the new timestamp, and then writes one at most. -/
theorem registers_of_step {result : Step σ} (stepped : machine.step = .ok result)
    (sound : result.overflow = none) :
    ∃ cells tick ticked,
      { machine.board.registers with cells }.tick
          (onSecondsInterval result.machine.board.ticks machine.settings.secondsTickHalfCycles)
          (onRefreshInterval result.machine.board.ticks machine.settings.refreshTickCycles) =
        .ok (tick, ticked) ∧
      (result.machine.board.registers = ticked ∨
        ∃ offset data write, machine.Writes (0x2000 + offset.toNat) ∧
          ticked.write offset data = .ok (write, result.machine.board.registers)) := by
  obtain ⟨awake, -⟩ := awake_of_step stepped sound
  obtain ⟨high, low, report, kept, rising, falling, housekept, rest⟩ := of_step awake stepped
  have coming := comingFrame_eq rising falling
  obtain ⟨sampled, -, ticks, -⟩ := audit_of_housekeep housekept
  obtain ⟨core, oscillator, clock, -, rfl⟩ := of_cycle rising falling
  obtain ⟨stackPointer, -, rfl⟩ | ⟨-, final, last, finished, rfl⟩ := rest
  · cases sound
  obtain ⟨boundary, observed, transfer, middle, -, moved, -, rfl⟩ := of_finishStep finished
  rw [sampled] at moved
  obtain ⟨-, movedTicks, -, -⟩ := audit_of_transfer moved
  have time : middle.board.ticks = clock := movedTicks.trans ticks
  obtain ⟨cells, tick, ticking⟩ := registers_of_housekeep housekept
  refine ⟨cells, tick, kept.registers, ?_, ?_⟩
  · show RegisterBank.tick _ (onSecondsInterval middle.board.ticks _)
      (onRefreshInterval middle.board.ticks _) = _
    rw [time]
    exact ticking
  · obtain same | ⟨offset, data, write, writes, written⟩ := registers_of_transfer moved
    · exact .inl same
    · exact .inr ⟨offset, data, write, ⟨_, coming, writes⟩, written⟩

end Machine

end Handheld
