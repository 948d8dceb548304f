/-
# What the operations of the board change

Each operation of the board touches a few of its parts and leaves the others as
they were. This module says which, one lemma for each operation, for runs that
succeed. Later modules cite these lemmas and open no operation themselves, unless
they are about the very part that an operation changes.
-/

import Mathlib.Algebra.Order.Group.Nat
import Handheld.Board.Basic
import Handheld.Proofs.Checked

namespace Handheld

open Checked

theorem Ram.size_of_write {ram changed : Ram} {offset : Nat} {data : UInt8}
    (written : ram.write offset data = .ok changed) : changed.cells.size = ram.cells.size := by
  obtain ⟨cells, set, same⟩ := bind_eq_ok.mp written
  cases same
  exact Cells.size_of_set set

/-- Two states of one socket: the image is the same, and so is the room for what
has been read of it. -/
structure Rom.SameImage (before after : Rom) : Prop where
  kind : after.kind = before.kind
  buffer : after.buffer = before.buffer
  length : after.length = before.length
  touched : after.touched.size = before.touched.size

namespace Rom.SameImage

variable {first second third : Rom}

theorem refl (rom : Rom) : rom.SameImage rom :=
  ⟨rfl, rfl, rfl, rfl⟩

theorem trans (one : first.SameImage second) (two : second.SameImage third) :
    first.SameImage third :=
  ⟨two.kind.trans one.kind, two.buffer.trans one.buffer, two.length.trans one.length,
    two.touched.trans one.touched⟩

end Rom.SameImage

/-- Reading an image over the bus touches an offset and nothing else. -/
theorem Rom.sameImage_of_fetch {rom changed : Rom} {offset : Nat} {data : UInt8}
    (fetched : rom.fetch offset = .ok (data, changed)) : rom.SameImage changed := by
  obtain ⟨touched, inserted, rest⟩ := bind_eq_ok.mp fetched
  obtain ⟨byte, -, same⟩ := bind_eq_ok.mp rest
  cases same
  exact ⟨rfl, rfl, rfl, Bitmap.size_of_insert inserted⟩

namespace RegisterBank

variable {bank changed : RegisterBank}

theorem cells_of_applyWrite {offset data : UInt8} {report : RegisterWrite}
    (applied : bank.applyWrite offset data = .ok (report, changed)) :
    changed.cells = bank.cells := by
  unfold applyWrite at applied
  split at applied
  case h_5 =>
    obtain ⟨latched, -, same⟩ := bind_eq_ok.mp applied
    cases same
    rfl
  all_goals
    cases applied
    rfl

theorem of_store {offset : UInt8} {byte : Option UInt8}
    (stored : bank.store offset byte = .ok changed) :
    ∃ cells, cells.size = bank.cells.size ∧ changed = { bank with cells } := by
  cases byte with
  | none =>
      cases stored
      exact ⟨bank.cells, rfl, rfl⟩
  | some byte =>
      obtain ⟨cells, set, same⟩ := bind_eq_ok.mp stored
      cases same
      exact ⟨cells, Cells.size_of_set set, rfl⟩

/-- A write goes to a device first, and then to the stored bytes. -/
theorem of_write {offset data : UInt8} {report : RegisterWrite}
    (written : bank.write offset data = .ok (report, changed)) :
    ∃ applied cells, bank.applyWrite offset data = .ok (report, applied) ∧
      cells.size = bank.cells.size ∧ changed = { applied with cells } := by
  obtain ⟨⟨report, applied⟩, first, rest⟩ := bind_eq_ok.mp written
  obtain ⟨last, stored, same⟩ := bind_eq_ok.mp rest
  cases same
  obtain ⟨cells, sized, rfl⟩ := of_store stored
  exact ⟨applied, cells, first, cells_of_applyWrite first ▸ sized, rfl⟩

/-- Raising an interrupt changes stored bytes only. -/
theorem of_raise {offset mask : UInt8} {raised : Bool}
    (done : bank.raise offset mask = .ok (raised, changed)) :
    ∃ cells, cells.size = bank.cells.size ∧ changed = { bank with cells } := by
  unfold raise at done
  split at done
  · obtain ⟨latched, -, rest⟩ := bind_eq_ok.mp done
    obtain ⟨cells, set, same⟩ := bind_eq_ok.mp rest
    cases same
    exact ⟨cells, Cells.size_of_set set, rfl⟩
  · cases done
    exact ⟨bank.cells, rfl, rfl⟩

/-- A tick goes to the two counters. -/
theorem of_tick {onSeconds onRefresh : Bool} {tick : Option RefreshTick}
    (done : bank.tick onSeconds onRefresh = .ok (tick, changed)) :
    ∃ seconds, bank.seconds.tick onSeconds = .ok seconds ∧
      changed = { bank with
        seconds, refresh := if onRefresh then bank.refresh.tick.2 else bank.refresh } ∧
      tick = if onRefresh then some bank.refresh.tick.1 else none := by
  obtain ⟨seconds, counted, rest⟩ := bind_eq_ok.mp done
  cases onRefresh with
  | true =>
      cases rest
      exact ⟨seconds, counted, rfl, rfl⟩
  | false =>
      cases rest
      exact ⟨seconds, counted, rfl, rfl⟩

end RegisterBank

theorem size_of_paint {planar pixels changed : Array UInt8} {contrast : UInt8}
    {orientation : Orientation} (painted : paint planar contrast orientation pixels = .ok changed) :
    changed.size = pixels.size := by
  refine rounds_invariant (fun painted => painted.size = pixels.size) ?_ rfl painted
  intro page before after sized pagePainted
  refine rounds_invariant (fun painted => painted.size = pixels.size) ?_ sized pagePainted
  intro x before after sized columnPainted
  refine rounds_invariant (fun painted => painted.size = pixels.size) ?_ sized columnPainted
  intro bit before after sized bitPainted
  obtain ⟨y, -, set⟩ := bind_eq_ok.mp bitPainted
  exact (Cells.size_of_set set).trans sized

theorem Screen.of_present {screen changed : Screen} {planar : Array UInt8} {contrast : UInt8}
    (shown : screen.present planar contrast = .ok changed) :
    changed.pixels.size = screen.pixels.size ∧ changed.orientation = screen.orientation := by
  obtain ⟨pixels, painted, rest⟩ := bind_eq_ok.mp shown
  obtain ⟨frames, -, same⟩ := bind_eq_ok.mp rest
  cases same
  exact ⟨size_of_paint painted, rfl⟩

/-- Composing the background keeps the size of working memory. -/
theorem RefreshController.size_of_compose {controller : RefreshController} {ram changed : Ram}
    {planar : Array UInt8} (composed : controller.compose ram = .ok (planar, changed)) :
    changed.cells.size = ram.cells.size := by
  refine rounds_invariant (fun state => state.2.cells.size = ram.cells.size) ?_ rfl composed
  intro page before after sized pageComposed
  refine rounds_invariant (fun state => state.2.cells.size = ram.cells.size) ?_ sized pageComposed
  rintro column ⟨before, ramBefore⟩ after sized columnComposed
  obtain ⟨tile, -, rest⟩ := bind_eq_ok.mp columnComposed
  obtain ⟨data, -, rest⟩ := bind_eq_ok.mp rest
  obtain ⟨ramAfter, written, rest⟩ := bind_eq_ok.mp rest
  obtain ⟨planar, -, same⟩ := bind_eq_ok.mp rest
  cases same
  exact (Ram.size_of_write written).trans sized

namespace Audit

variable {audit changed : Audit}

theorem of_markExecuted {opcode : UInt16} (marked : audit.markExecuted opcode = .ok changed) :
    ∃ executed, executed.size = audit.executed.size ∧ changed = { audit with executed } := by
  unfold markExecuted at marked
  split at marked
  · obtain ⟨executed, inserted, same⟩ := bind_eq_ok.mp marked
    cases same
    exact ⟨executed, Bitmap.size_of_insert inserted, rfl⟩
  · cases marked
    exact ⟨audit.executed, rfl, rfl⟩

/-- All that looking at a frame can do. Outside boundaries nothing happens; a
boundary that closes an interrupt entry is passed over; any other one enters the
opcode as executed, and counts a discrepancy if the cycles disagree with a known
entry of the table. -/
theorem observe_cases {pins : Pins} {probes : Probes} {timestamp : UInt64}
    {boundary : Option Boundary}
    (observed : audit.observe pins probes timestamp = .ok (boundary, changed)) :
    (isBoundary pins probes = false ∧ boundary = none ∧ changed = audit) ∨
    (isBoundary pins probes = true ∧ audit.inInterrupt = true ∧ boundary = none ∧
      changed = { audit with inInterrupt := false }) ∨
    (isBoundary pins probes = true ∧ audit.inInterrupt = false ∧
      ∃ executed discrepancies finding,
        audit.markExecuted probes.extendedOpcode = .ok { audit with executed } ∧
        ((((audit.table.get probes.extendedOpcode).isKnown = false ∨
              (audit.table.get probes.extendedOpcode).admits audit.cycles = true) ∧
            finding = none ∧ discrepancies = audit.discrepancies) ∨
          ((audit.table.get probes.extendedOpcode).isKnown = true ∧
            (audit.table.get probes.extendedOpcode).admits audit.cycles = false ∧
            finding = some ⟨probes.extendedOpcode, audit.table.get probes.extendedOpcode,
              audit.cycles, timestamp⟩ ∧
            audit.discrepancies.increment probes.extendedOpcode = .ok discrepancies)) ∧
        boundary = some ⟨probes.extendedOpcode, audit.cycles, timestamp, finding⟩ ∧
        changed = { audit with executed, discrepancies }) := by
  unfold observe at observed
  split at observed
  · rename_i elsewhere
    cases observed
    exact .inl ⟨by simpa using elsewhere, rfl, rfl⟩
  rename_i notElsewhere
  have closing : isBoundary pins probes = true := by simpa using notElsewhere
  split at observed
  · rename_i entering
    cases observed
    exact .inr (.inl ⟨closing, entering, rfl, rfl⟩)
  rename_i notEntering
  obtain ⟨middle, marked, rest⟩ := bind_eq_ok.mp observed
  obtain ⟨executed, -, rfl⟩ := of_markExecuted marked
  refine .inr (.inr ⟨closing, by simpa using notEntering, executed, ?_⟩)
  dsimp only at rest
  split at rest
  · rename_i agrees
    cases rest
    rw [Bool.or_eq_true, Bool.not_eq_true'] at agrees
    exact ⟨_, _, marked, .inl ⟨agrees, rfl, rfl⟩, rfl, rfl⟩
  · rename_i disagrees
    obtain ⟨discrepancies, counted, same⟩ := bind_eq_ok.mp rest
    cases same
    rw [Bool.or_eq_true, Bool.not_eq_true', not_or, Bool.not_eq_false,
      Bool.not_eq_true] at disagrees
    exact ⟨_, _, marked, .inr ⟨disagrees.1, disagrees.2, rfl, counted⟩, rfl, rfl⟩

/-- Looking at a frame changes the books, never what they are compared with. -/
theorem of_observe {pins : Pins} {probes : Probes} {timestamp : UInt64}
    {boundary : Option Boundary}
    (observed : audit.observe pins probes timestamp = .ok (boundary, changed)) :
    ∃ inInterrupt executed discrepancies, executed.size = audit.executed.size ∧
      changed = { audit with inInterrupt, executed, discrepancies } := by
  obtain ⟨-, -, rfl⟩ | ⟨-, -, -, rfl⟩ | ⟨-, -, executed, _, _, marked, -, -, rfl⟩ :=
    observe_cases observed
  · exact ⟨_, _, _, rfl, rfl⟩
  · exact ⟨_, _, _, rfl, rfl⟩
  · obtain ⟨_, sized, same⟩ := of_markExecuted marked
    cases same
    exact ⟨_, _, _, sized, rfl⟩

theorem of_collectComplaints {pins : Pins} {probes : Probes} {found : List Complaint}
    (collected : audit.collectComplaints pins probes = .ok (found, changed)) :
    found = Complaint.ofFrame pins probes audit.stackLimit ∧
      ∃ complaints, changed = { audit with complaints } := by
  obtain ⟨complaints, -, same⟩ := bind_eq_ok.mp collected
  cases same
  exact ⟨rfl, complaints, rfl⟩

theorem of_enterInterrupt (audit : Audit) (pins : Pins) (timestamp guardTime : UInt64) :
    (audit.enterInterrupt pins timestamp guardTime).2 =
      { audit with
        inInterrupt := isEntry pins timestamp guardTime || audit.inInterrupt } := by
  unfold enterInterrupt
  cases isEntry pins timestamp guardTime <;> rfl

end Audit

/-- No pair of clocks gives a longer period. -/
theorem Oscillator.toNat_periodOf_le (coreHz realTimeHz : UInt32) :
    (Oscillator.periodOf coreHz realTimeHz).toNat ≤ 2 ^ 33 := by
  have fast := coreHz.toNat_lt
  have slow := realTimeHz.toNat_lt
  have ratio : (coreHz.toNat + max realTimeHz.toNat 1 / 2) / max realTimeHz.toNat 1 ≤
      coreHz.toNat + max realTimeHz.toNat 1 / 2 := Nat.div_le_self _ _
  rw [Oscillator.periodOf, UInt64.toNat_ofNat']
  refine Nat.le_trans (Nat.mod_le _ _) ?_
  omega

theorem Oscillator.period_of_due {oscillator changed : Oscillator} {timestamp : UInt64}
    {toggled : Option Bool} (done : oscillator.due timestamp = .ok (toggled, changed)) :
    changed.period = oscillator.period := by
  unfold Oscillator.due at done
  split at done
  · cases done
    rfl
  · obtain ⟨next, -, same⟩ := bind_eq_ok.mp done
    cases same
    rfl

/-! ## The board -/

namespace Board

variable {board changed : Board}

theorem of_halfCycle {toggled : Option Bool} (passed : board.halfCycle = .ok (toggled, changed)) :
    ∃ oscillator, board.oscillator.due board.ticks = .ok (toggled, oscillator) ∧
      (board.ticks + 1).toNat = board.ticks.toNat + 1 ∧
      changed = { board with oscillator, ticks := board.ticks + 1 } := by
  obtain ⟨⟨level, oscillator⟩, due, rest⟩ := bind_eq_ok.mp passed
  obtain ⟨ticks, added, same⟩ := bind_eq_ok.mp rest
  obtain ⟨rfl, fits⟩ := of_add64_eq_ok added
  cases same
  exact ⟨oscillator, due, fits, rfl⟩

theorem of_latch {registers changed : RegisterBank} {rose : Bool} {source : Interrupt.Sources}
    (latched : latch registers rose source = .ok changed) :
    ∃ cells, cells.size = registers.cells.size ∧ changed = { registers with cells } := by
  unfold latch at latched
  split at latched
  · obtain ⟨⟨raised, bank⟩, done, same⟩ := bind_eq_ok.mp latched
    cases same
    exact RegisterBank.of_raise done
  · cases latched
    exact ⟨registers.cells, rfl, rfl⟩

/-- Sampling the interrupt lines changes stored bytes and the two detectors. -/
theorem of_latchEdges {probes : Probes} {edges : Edges}
    (latched : board.latchEdges probes = .ok (edges, changed)) :
    ∃ cells, cells.size = board.registers.cells.size ∧
      changed = { board with
        registers := { board.registers with cells }
        renderDone := ⟨probes.irqRenderDone⟩
        copyComplete := ⟨probes.irqCopyComplete⟩ } := by
  obtain ⟨first, renderLatched, rest⟩ := bind_eq_ok.mp latched
  obtain ⟨second, copyLatched, same⟩ := bind_eq_ok.mp rest
  obtain ⟨firstCells, firstSized, rfl⟩ := of_latch renderLatched
  obtain ⟨secondCells, secondSized, rfl⟩ := of_latch copyLatched
  cases same
  exact ⟨secondCells, secondSized.trans firstSized, rfl⟩

theorem of_tickRegisters {settings : Settings} {tick : Option RefreshTick}
    (ticked : board.tickRegisters settings = .ok (tick, changed)) :
    ∃ registers,
      board.registers.tick (onSecondsInterval board.ticks settings.secondsTickHalfCycles)
        (onRefreshInterval board.ticks settings.refreshTickCycles) = .ok (tick, registers) ∧
      changed = { board with registers } := by
  obtain ⟨⟨outcome, registers⟩, done, same⟩ := bind_eq_ok.mp ticked
  cases same
  exact ⟨registers, done, rfl⟩

/-- Showing a frame changes the screen, and working memory where the background
is composed. -/
theorem of_present {memory : Option (Array UInt8)} {contrast : Option UInt8}
    {presentation : Presentation}
    (shown : board.present memory contrast = .ok (presentation, changed)) :
    ∃ ram screen, ram.cells.size = board.ram.cells.size ∧
      screen.pixels.size = board.screen.pixels.size ∧
      screen.orientation = board.screen.orientation ∧
      changed = { board with ram, screen } := by
  cases memory with
  | some planar =>
      obtain ⟨-, ⟨⟩, rest⟩ := bind_eq_ok.mp shown
      obtain ⟨screen, presented, same⟩ := bind_eq_ok.mp rest
      obtain ⟨pixels, orientation⟩ := Screen.of_present presented
      cases same
      exact ⟨_, _, rfl, pixels, orientation, rfl⟩
  | none =>
      obtain ⟨⟨planar, ram⟩, composed, rest⟩ := bind_eq_ok.mp shown
      obtain ⟨screen, presented, same⟩ := bind_eq_ok.mp rest
      obtain ⟨pixels, orientation⟩ := Screen.of_present presented
      cases same
      exact ⟨_, _, RefreshController.size_of_compose composed, pixels, orientation, rfl⟩

/-- A bus read touches an image and counts incidents. -/
theorem of_fetch {bus : Transaction} {codeBank : UInt8} {report : Fetch}
    (fetched : board.fetch bus codeBank = .ok (report, changed)) :
    ∃ bios cartridge incidents, board.bios.SameImage bios ∧
      board.cartridge.SameImage cartridge ∧
      changed = { board with bios, cartridge, incidents } := by
  unfold fetch at fetched
  cases region : (board.locate bus.address).region with
  | bios =>
      simp only [region] at fetched
      obtain ⟨⟨data, bios⟩, done, same⟩ := bind_eq_ok.mp fetched
      cases same
      exact ⟨_, _, _, Rom.sameImage_of_fetch done, .refl _, rfl⟩
  | ram =>
      simp only [region] at fetched
      obtain ⟨data, -, same⟩ := bind_eq_ok.mp fetched
      cases same
      exact ⟨_, _, _, .refl _, .refl _, rfl⟩
  | registers =>
      simp only [region] at fetched
      obtain ⟨incidents, -, rest⟩ := bind_eq_ok.mp fetched
      obtain ⟨data, -, same⟩ := bind_eq_ok.mp rest
      cases same
      exact ⟨_, _, _, .refl _, .refl _, rfl⟩
  | cartridge =>
      simp only [region] at fetched
      obtain ⟨incidents, -, rest⟩ := bind_eq_ok.mp fetched
      obtain ⟨⟨data, cartridge⟩, done, same⟩ := bind_eq_ok.mp rest
      cases same
      exact ⟨_, _, _, .refl _, Rom.sameImage_of_fetch done, rfl⟩

theorem of_writeRegister {offset data : UInt8} {report : RegisterWrite}
    (written : board.writeRegister offset data = .ok (report, changed)) :
    ∃ registers incidents, board.registers.write offset data = .ok (report, registers) ∧
      countWrite board.incidents report = .ok incidents ∧
      changed = { board with registers, incidents } := by
  obtain ⟨⟨report, registers⟩, done, rest⟩ := bind_eq_ok.mp written
  obtain ⟨incidents, counted, same⟩ := bind_eq_ok.mp rest
  cases same
  exact ⟨registers, incidents, done, counted, rfl⟩

/-- A bus write reaches working memory or a register, and counts incidents. -/
theorem of_store {bus : Transaction} {report : Store}
    (stored : board.store bus = .ok (report, changed)) :
    ∃ ram registers incidents, ram.cells.size = board.ram.cells.size ∧
      registers.cells.size = board.registers.cells.size ∧
      changed = { board with ram, registers, incidents } := by
  unfold store at stored
  cases region : (board.locate bus.address).region with
  | bios =>
      simp only [region] at stored
      obtain ⟨illegalWrites, -, same⟩ := bind_eq_ok.mp stored
      cases same
      exact ⟨_, _, _, rfl, rfl, rfl⟩
  | ram =>
      simp only [region] at stored
      obtain ⟨ram, written, same⟩ := bind_eq_ok.mp stored
      cases same
      exact ⟨_, _, _, Ram.size_of_write written, rfl, rfl⟩
  | registers =>
      simp only [region] at stored
      obtain ⟨⟨write, after⟩, done, same⟩ := bind_eq_ok.mp stored
      obtain ⟨registers, incidents, written, -, rfl⟩ := of_writeRegister done
      obtain ⟨applied, cells, -, sized, rfl⟩ := RegisterBank.of_write written
      cases same
      exact ⟨_, _, _, rfl, sized, rfl⟩
  | cartridge =>
      simp only [region] at stored
      obtain ⟨illegalWrites, -, same⟩ := bind_eq_ok.mp stored
      cases same
      exact ⟨_, _, _, rfl, rfl, rfl⟩

end Board

end Handheld
