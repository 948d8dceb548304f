/-
# Machines at power-on

A machine that has not stepped since power-on may hold images and a cycle table
and have keys pressed. In everything else it is as it left the factory: its
registers and counters are at their first values, and it is not halted.
-/

import Handheld.Proofs.Machine.AuditTrace
import Handheld.Proofs.Machine.Progress

namespace Handheld.Machine

open Checked

variable {σ : Type} [Core σ] {table : CycleTable} {machine : Machine σ}

/-- What power-on leaves behind, whatever the host has prepared since. -/
structure Fresh (machine : Machine σ) : Prop where
  awake : machine.haltedAt = none
  registers : ∃ keyPad, machine.board.registers = { RegisterBank.initial with keyPad }
  incidents : machine.board.incidents = {}
  frames : machine.board.screen.frames = 0
  period : machine.board.oscillator.period.toNat ≤ 2 ^ 33

omit [Core σ] in
theorem fresh_of_initial {settings : Settings} {bios cartridge : Rom} {audit : Audit}
    (awake : machine.haltedAt = none)
    (board : machine.board = { Board.initial settings with bios, cartridge, audit }) :
    machine.Fresh where
  awake := awake
  registers := ⟨.released, by rw [board]; rfl⟩
  incidents := by rw [board]; rfl
  frames := by rw [board]; rfl
  period := by
    rw [board]
    exact Oscillator.toNat_periodOf_le _ _

theorem PoweredOn.fresh (poweredOn : PoweredOn table machine) : machine.Fresh := by
  induction poweredOn with
  | start core settings =>
      apply fresh_of_initial (settings_start core settings).2
      rw [Machine.start, board_holdReset]
  | reset machine =>
      apply fresh_of_initial (flags_holdReset _).2.2
      rw [Machine.reset, board_holdReset]
      rfl
  | setTable table _ ih => exact { ih with }
  | loadBios _ loaded ih =>
      obtain ⟨bios, -, same⟩ := bind_eq_ok.mp loaded
      cases same
      exact { ih with }
  | loadCartridge _ loaded ih =>
      obtain ⟨cartridge, -, same⟩ := bind_eq_ok.mp loaded
      cases same
      exact { ih with }
  | @setKeys _ machine keys _ ih =>
      obtain ⟨keyPad, registers⟩ := ih.registers
      have awake : (machine.setKeys keys).haltedAt = none :=
        (flags_forwardKeys _).2.2.trans ih.awake
      refine ⟨awake, ⟨⟨keys⟩, ?_⟩, ?_, ?_, ?_⟩
      all_goals rw [board_setKeys]
      · rw [Board.setKeys, RegisterBank.setKeys, registers]
      · exact ih.incidents
      · exact ih.frames
      · exact ih.period

/-- A machine at power-on has its whole life before it. -/
theorem PoweredOn.aged (poweredOn : PoweredOn table machine) (intact : machine.board.Intact) :
    machine.board.Aged 0 0 := by
  have fresh := poweredOn.fresh
  obtain ⟨ticks, stackLimit, audit⟩ := poweredOn.audit
  obtain ⟨keyPad, registers⟩ := fresh.registers
  have ranges : machine.board.registers.InRange := by
    rw [registers]
    exact { RegisterBank.inRange_initial with }
  have unloaded : machine.board.load = 0 := by
    rw [Board.load, fresh.incidents, audit, fresh.frames, ticks]
    rfl
  exact
    { bounded := ⟨intact, ranges, fresh.period, unloaded.le⟩
      discrepancies := fun opcode => by rw [audit]; exact le_rfl
      even := by rw [ticks]; rfl }

end Handheld.Machine
