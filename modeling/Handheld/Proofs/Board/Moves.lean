/-
# Moves of the board

A move is one thing that can happen to a board without its images or its cycle
table being exchanged: half a cycle, a bus access, a look of the audit at a
frame, an action of the host. A clock cycle of a machine is a row of moves, so
what every move keeps, every run keeps.

The fixtures of a board are what no move changes.
-/

import Mathlib.Logic.Relation
import Handheld.Proofs.Board.Effects

namespace Handheld

namespace Board

/-- One thing that happens to a board, successfully. -/
inductive Move : Board → Board → Prop
  | halfCycle {board changed : Board} {toggled : Option Bool} :
      board.halfCycle = .ok (toggled, changed) → Move board changed
  | latchEdges (probes : Probes) {board changed : Board} {edges : Edges} :
      board.latchEdges probes = .ok (edges, changed) → Move board changed
  | tickRegisters (settings : Settings) {board changed : Board} {tick : Option RefreshTick} :
      board.tickRegisters settings = .ok (tick, changed) → Move board changed
  | present (memory : Option (Array UInt8)) (contrast : Option UInt8) {board changed : Board}
      {presentation : Presentation} :
      board.present memory contrast = .ok (presentation, changed) → Move board changed
  | collectComplaints (pins : Pins) (probes : Probes) {board : Board} {found : List Complaint}
      {audit : Audit} :
      board.audit.collectComplaints pins probes = .ok (found, audit) →
        Move board { board with audit }
  | observe (pins : Pins) (probes : Probes) (timestamp : UInt64) {board : Board}
      {boundary : Option Boundary} {audit : Audit} :
      board.audit.observe pins probes timestamp = .ok (boundary, audit) →
        Move board { board with audit }
  | enterInterrupt (pins : Pins) (timestamp guardTime : UInt64) (board : Board) :
      Move board
        { board with audit := (board.audit.enterInterrupt pins timestamp guardTime).2 }
  | countCycle (pins : Pins) (probes : Probes) (board : Board) :
      Move board { board with audit := board.audit.countCycle pins probes }
  | fetch (bus : Transaction) (codeBank : UInt8) {board changed : Board} {report : Fetch} :
      board.fetch bus codeBank = .ok (report, changed) → Move board changed
  | store (bus : Transaction) {board changed : Board} {report : Store} :
      board.store bus = .ok (report, changed) → Move board changed
  | writeRegister (offset data : UInt8) {board changed : Board} {report : RegisterWrite} :
      board.writeRegister offset data = .ok (report, changed) → Move board changed
  | raise (offset mask : UInt8) {board : Board} {raised : Bool} {registers : RegisterBank} :
      board.registers.raise offset mask = .ok (raised, registers) →
        Move board { board with registers }
  | setKeys (keys : Keys) (board : Board) : Move board (board.setKeys keys)
  | takeRedraw (board : Board) : Move board { board with screen := board.screen.takeRedraw.2 }

/-- Any number of moves. -/
abbrev Moves : Board → Board → Prop :=
  Relation.ReflTransGen Move

/-- The two boards have the same images, memories of the same sizes, and the same
cycle table, stack limit and orientation. -/
structure SameFixtures (before after : Board) : Prop where
  ram : after.ram.cells.size = before.ram.cells.size
  bios : before.bios.SameImage after.bios
  cartridge : before.cartridge.SameImage after.cartridge
  registers : after.registers.cells.size = before.registers.cells.size
  table : after.audit.table = before.audit.table
  executed : after.audit.executed.size = before.audit.executed.size
  stackLimit : after.audit.stackLimit = before.audit.stackLimit
  pixels : after.screen.pixels.size = before.screen.pixels.size
  orientation : after.screen.orientation = before.screen.orientation

namespace SameFixtures

variable {first second third : Board}

theorem refl (board : Board) : board.SameFixtures board :=
  ⟨rfl, .refl _, .refl _, rfl, rfl, rfl, rfl, rfl, rfl⟩

theorem trans (one : first.SameFixtures second) (two : second.SameFixtures third) :
    first.SameFixtures third where
  ram := two.ram.trans one.ram
  bios := one.bios.trans two.bios
  cartridge := one.cartridge.trans two.cartridge
  registers := two.registers.trans one.registers
  table := two.table.trans one.table
  executed := two.executed.trans one.executed
  stackLimit := two.stackLimit.trans one.stackLimit
  pixels := two.pixels.trans one.pixels
  orientation := two.orientation.trans one.orientation

end SameFixtures

/-- No move changes a fixture. -/
theorem Move.sameFixtures {before after : Board} (move : Move before after) :
    before.SameFixtures after := by
  cases move with
  | halfCycle passed =>
      obtain ⟨oscillator, -, -, rfl⟩ := of_halfCycle passed
      exact { SameFixtures.refl before with }
  | latchEdges probes latched =>
      obtain ⟨cells, sized, rfl⟩ := of_latchEdges latched
      exact { SameFixtures.refl before with registers := sized }
  | tickRegisters settings ticked =>
      obtain ⟨registers, done, rfl⟩ := of_tickRegisters ticked
      obtain ⟨seconds, -, rfl, -⟩ := RegisterBank.of_tick done
      exact { SameFixtures.refl before with }
  | present memory contrast shown =>
      obtain ⟨ram, screen, ramSized, pixels, orientation, rfl⟩ := of_present shown
      exact { SameFixtures.refl before with ram := ramSized, pixels, orientation }
  | collectComplaints pins probes collected =>
      obtain ⟨-, complaints, rfl⟩ := Audit.of_collectComplaints collected
      exact { SameFixtures.refl before with }
  | observe pins probes timestamp observed =>
      obtain ⟨inInterrupt, executed, discrepancies, sized, rfl⟩ := Audit.of_observe observed
      exact { SameFixtures.refl before with executed := sized }
  | enterInterrupt pins timestamp guardTime =>
      rw [Audit.of_enterInterrupt]
      exact { SameFixtures.refl before with }
  | countCycle pins probes => exact { SameFixtures.refl before with }
  | fetch bus codeBank fetched =>
      obtain ⟨bios, cartridge, incidents, sameBios, sameCartridge, rfl⟩ := of_fetch fetched
      exact { SameFixtures.refl before with bios := sameBios, cartridge := sameCartridge }
  | store bus stored =>
      obtain ⟨ram, registers, incidents, ramSized, sized, rfl⟩ := of_store stored
      exact { SameFixtures.refl before with ram := ramSized, registers := sized }
  | writeRegister offset data written =>
      obtain ⟨registers, incidents, done, -, rfl⟩ := of_writeRegister written
      obtain ⟨applied, cells, -, sized, rfl⟩ := RegisterBank.of_write done
      exact { SameFixtures.refl before with registers := sized }
  | raise offset mask done =>
      obtain ⟨cells, sized, rfl⟩ := RegisterBank.of_raise done
      exact { SameFixtures.refl before with registers := sized }
  | setKeys keys => exact { SameFixtures.refl before with }
  | takeRedraw => exact { SameFixtures.refl before with }

/-- No row of moves changes a fixture. -/
theorem sameFixtures_of_moves {before after : Board} (moves : Moves before after) :
    before.SameFixtures after := by
  induction moves with
  | refl => exact .refl _
  | tail _ move ih => exact ih.trans move.sameFixtures

end Board

end Handheld
