/-
# Steps without a fault

A machine whose board is ready always takes its next step: no access of the
step misses its cell, and no counter passes the end of its word. This holds for
every core, because nothing that a core shows can reach beyond the cells of the
board.

Two numbers grow from step to step and decide how far this carries. The load of
the board grows by at most 99, which leaves room for more steps than any machine
will take. The discrepancies of an opcode are kept in 32 bits and grow by at most
one, so that they have room for fewer than 2 to the 32 steps.
-/

import Handheld.Proofs.Board.Progress
import Handheld.Proofs.Machine.Steps

namespace Handheld

open Checked

/-- Looking at a frame counts at most one discrepancy of an opcode. -/
theorem Audit.discrepancies_of_observe {audit changed : Audit} {pins : Pins} {probes : Probes}
    {timestamp : UInt64} {boundary : Option Boundary}
    (observed : audit.observe pins probes timestamp = .ok (boundary, changed)) (opcode : UInt16) :
    (changed.discrepancies.get opcode).toNat ≤ (audit.discrepancies.get opcode).toNat + 1 := by
  obtain ⟨-, -, rfl⟩ | ⟨-, -, -, rfl⟩ | ⟨-, -, executed, discrepancies, _, -, finding, -, rfl⟩ :=
    Audit.observe_cases observed
  · exact Nat.le_succ _
  · exact Nat.le_succ _
  · obtain ⟨-, -, rfl⟩ | ⟨-, -, -, counted⟩ := finding
    · exact Nat.le_succ _
    · show (discrepancies.get opcode).toNat ≤ _
      rw [(Tally.of_increment counted).1]
      split
      · exact le_rfl
      · exact Nat.le_succ _

namespace Machine

variable {σ : Type} [Core σ]

section

variable {Holds : Nat → Board → Prop} (reserve : Board.Reserve Holds) {moves : Nat}
include reserve

theorem halfCycle_reserve {machine : Machine σ} (held : Holds (moves + 1) machine.board)
    (level : Bool) :
    ∃ after, machine.halfCycle level = .ok after ∧ Holds moves after.board := by
  have succeeds : Succeeds (machine.halfCycle level) :=
    (reserve.ready held).halfCycle_succeeds.bind fun _ _ => .ok _
  obtain ⟨after, passed⟩ := succeeds
  obtain ⟨toggled, core, board, done, rfl⟩ := of_halfCycle passed
  exact ⟨_, passed, reserve.move held (.halfCycle done)⟩

theorem capture_reserve {board : Board} (held : Holds (moves + 1) board) (core : σ) (due : Bool) :
    ∃ shown after, capture core board due = .ok (shown, after) ∧ Holds moves after := by
  have succeeds : Succeeds (capture core board due) := by
    unfold capture
    split
    · exact ((reserve.ready held).present_succeeds _ _).bind fun _ _ => .ok _
    · exact .ok _
  obtain ⟨⟨shown, after⟩, captured⟩ := succeeds
  refine ⟨shown, after, captured, ?_⟩
  rcases of_capture captured with ⟨-, rfl⟩ | ⟨-, presentation, presented⟩
  · exact reserve.mono held (Nat.le_succ _)
  · exact reserve.move held (.present _ _ presented)

/-- Housekeeping is five moves at most. -/
theorem housekeep_reserve {board : Board} (held : Holds (moves + 5) board) (core : σ)
    (settings : Settings) (sampled : Frame) :
    ∃ report kept, housekeep core settings sampled board = .ok (report, kept) ∧
      Holds moves kept := by
  obtain ⟨⟨edges, latched⟩, latching⟩ := (reserve.ready held).latchEdges_succeeds sampled.probes
  have latchedHeld := reserve.move held (.latchEdges _ latching)
  obtain ⟨rendered, shown, rendering, shownHeld⟩ := capture_reserve reserve latchedHeld core
    (edges.renderDone && settings.frameSource = .coreRenderDone)
  obtain ⟨⟨refresh, ticked⟩, ticking⟩ := (reserve.ready shownHeld).tickRegisters_succeeds settings
  have tickedHeld := reserve.move shownHeld (.tickRegisters _ ticking)
  obtain ⟨refreshed, drawn, drawing, drawnHeld⟩ := capture_reserve reserve tickedHeld core
    (refresh = some .frame && settings.frameSource = .refreshController)
  obtain ⟨⟨complaints, audit⟩, collecting⟩ :=
    (reserve.ready drawnHeld).collectComplaints_succeeds sampled.pins sampled.probes
  have keptHeld := reserve.move drawnHeld (.collectComplaints _ _ collecting)
  exact ⟨_, _, housekeep_of_stages latching rendering ticking drawing collecting, keptHeld⟩

theorem transfer_reserve {machine : Machine σ} (held : Holds (moves + 1) machine.board)
    (sampled : Frame) :
    ∃ report after, machine.transfer sampled = .ok (report, after) ∧ Holds moves after.board := by
  have ready := reserve.ready held
  have succeeds : Succeeds (machine.transfer sampled) := by
    unfold transfer
    dsimp only
    split
    · split
      · exact .ok _
      · exact (ready.fetch_succeeds _ _).bind fun _ _ => .ok _
    · split
      · exact (ready.store_succeeds _).bind fun _ _ => .ok _
      · exact .ok _
    · exact .ok _
    · exact .ok _
  obtain ⟨⟨report, after⟩, done⟩ := succeeds
  refine ⟨report, after, done, ?_⟩
  obtain ⟨core, board, bus, rfl, rfl | ⟨-, -, _, fetched⟩ | ⟨-, -, _, stored⟩⟩ := of_transfer done
  · exact reserve.mono held (Nat.le_succ _)
  · exact reserve.move held (.fetch _ _ fetched)
  · exact reserve.move held (.store _ stored)

theorem finishStep_reserve {machine : Machine σ} (held : Holds (moves + 4) machine.board)
    (report : StepReport)
    (few : ∀ opcode, (machine.board.audit.discrepancies.get opcode).toNat + 1 < 2 ^ 32) :
    ∃ final after, machine.finishStep report = .ok (final, after) ∧ Holds moves after.board := by
  obtain ⟨⟨boundary, audit⟩, observed⟩ := (reserve.ready held).observe_succeeds
    report.sampled.pins report.sampled.probes report.timestamp few
  have observedHeld := reserve.move held (.observe _ _ _ observed)
  have enteredHeld : Holds (moves + 2) (machine.audited report audit).board :=
    reserve.move observedHeld (.enterInterrupt report.sampled.pins report.timestamp
      machine.settings.irqGuardHalfCycles _)
  obtain ⟨transfer, middle, moved, movedHeld⟩ :=
    transfer_reserve reserve enteredHeld report.sampled
  obtain ⟨final, finished⟩ := finishStep_eq_ok observed moved
  exact ⟨final, _, finished, reserve.move movedHeld (.countCycle _ _ _)⟩

/-- A step is eleven moves at most, and a machine takes it if its board is good for
them. -/
theorem step_reserve {machine : Machine σ} (held : Holds (moves + 11) machine.board)
    (few : ∀ opcode, (machine.board.audit.discrepancies.get opcode).toNat + 1 < 2 ^ 32) :
    ∃ result, machine.step = .ok result ∧ Holds moves result.machine.board := by
  cases halted : machine.haltedAt with
  | some stackPointer =>
      exact ⟨_, step_of_halted halted, reserve.mono held (Nat.le_add_right _ _)⟩
  | none =>
      obtain ⟨high, rising, highHeld⟩ := halfCycle_reserve reserve held true
      obtain ⟨low, falling, lowHeld⟩ := halfCycle_reserve reserve highHeld false
      obtain ⟨report, kept, housekept, keptHeld⟩ :=
        housekeep_reserve reserve lowHeld low.core low.settings low.shownFrame
      have keptFew : ∀ opcode, (kept.audit.discrepancies.get opcode).toNat + 1 < 2 ^ 32 := by
        obtain ⟨core, oscillator, clock, -, rfl⟩ := of_cycle rising falling
        obtain ⟨-, -, -, complaints, audit⟩ := audit_of_housekeep housekept
        rw [audit]
        exact few
      cases overflowed : overflowOf report.complaints with
      | some stackPointer =>
          exact ⟨_, step_of_overflow halted rising falling housekept overflowed,
            reserve.mono keptHeld (Nat.le_add_right _ _)⟩
      | none =>
          let staged : Machine σ := { low with board := kept }
          have stagedHeld : Holds (moves + 4) staged.board := keptHeld
          obtain ⟨final, after, finished, afterHeld⟩ :=
            finishStep_reserve reserve stagedHeld report keptFew
          exact ⟨_, step_eq_ok halted rising falling housekept overflowed finished, afterHeld⟩

end

/-- A machine with a bounded board takes its next step. -/
theorem step_bounded {machine : Machine σ} {bound : Nat} (bounded : machine.board.Bounded bound)
    (room : bound + 99 < 2 ^ 63)
    (few : ∀ opcode, (machine.board.audit.discrepancies.get opcode).toNat + 1 < 2 ^ 32) :
    ∃ result, machine.step = .ok result ∧ result.machine.board.Bounded (bound + 99) := by
  have held : ∃ reached, machine.board.Bounded reached ∧ reached + 9 * (0 + 11) ≤ bound + 99 :=
    ⟨bound, bounded, le_rfl⟩
  obtain ⟨result, stepped, reached, afterBounded, below⟩ :=
    step_reserve (Board.reserve_bounded room) held few
  exact ⟨result, stepped, afterBounded.mono below⟩

/-- What every step of a machine that is not halted does, whether the stack
overflows in it or not. -/
structure Passed (machine : Machine σ) (result : Step σ) : Prop where
  settings : result.machine.settings = machine.settings
  ticks : result.machine.board.ticks.toNat = machine.board.ticks.toNat + 2
  discrepancies : ∀ opcode, (result.machine.board.audit.discrepancies.get opcode).toNat ≤
    (machine.board.audit.discrepancies.get opcode).toNat + 1

theorem passed_of_step {machine : Machine σ} {result : Step σ} (awake : machine.haltedAt = none)
    (stepped : machine.step = .ok result) : Passed machine result := by
  obtain ⟨high, low, kept, board, rising, falling, housekept, rest⟩ := of_step awake stepped
  obtain ⟨stackPointer, -, rfl⟩ | ⟨-, final, after, -, rfl⟩ := rest
  · obtain ⟨core, oscillator, clock, passed, rfl⟩ := of_cycle rising falling
    obtain ⟨-, -, ticks, complaints, audit⟩ := audit_of_housekeep housekept
    refine ⟨rfl, ?_, ?_⟩
    · show board.ticks.toNat = _
      rw [ticks]
      exact passed
    · intro opcode
      show (board.audit.discrepancies.get opcode).toNat ≤ _
      rw [audit]
      exact Nat.le_succ _
  · have step := auditStep_of_step stepped
    obtain ⟨complaints, observed, observing, audit⟩ := step.audit
    refine ⟨step.settings, step.ticks, ?_⟩
    intro opcode
    have seen := Audit.discrepancies_of_observe observing opcode
    show (after.board.audit.discrepancies.get opcode).toNat ≤ _
    rw [audit, Audit.of_enterInterrupt]
    exact seen

/-- A step, even one of a halted machine, counts at most one discrepancy of an opcode. -/
theorem discrepancies_of_step {machine : Machine σ} {result : Step σ}
    (stepped : machine.step = .ok result) (opcode : UInt16) :
    (result.machine.board.audit.discrepancies.get opcode).toNat ≤
      (machine.board.audit.discrepancies.get opcode).toNat + 1 := by
  cases halted : machine.haltedAt with
  | some stackPointer =>
      rw [step_of_halted halted] at stepped
      cases stepped
      exact Nat.le_succ _
  | none => exact (passed_of_step halted stepped).discrepancies opcode

end Machine

/-! ## Age -/

namespace Board

/-- The board is between two steps. Its load is bounded, and no opcode has more
discrepancies than the board has seen steps. -/
structure Aged (board : Board) (bound age : Nat) : Prop where
  bounded : board.Bounded bound
  discrepancies : ∀ opcode, (board.audit.discrepancies.get opcode).toNat ≤ age
  even : board.ticks.toNat % 2 = 0

variable {board changed : Board} {bound age : Nat}

theorem aged_initial (settings : Settings) : (initial settings).Aged 0 0 where
  bounded := bounded_initial settings
  discrepancies _ := le_rfl
  even := rfl

/-- At power-on a board is as young as a new one, whatever images it holds. -/
theorem Intact.aged_powerOn (intact : board.Intact) (settings : Settings) :
    (board.powerOn settings).Aged 0 0 :=
  { aged_initial settings with
    bounded := { (aged_initial settings).bounded with intact := intact.powerOn settings } }

namespace Aged

theorem mono (aged : board.Aged bound age) {larger older : Nat} (loadLe : bound ≤ larger)
    (ageLe : age ≤ older) : board.Aged larger older where
  bounded := aged.bounded.mono loadLe
  discrepancies opcode := (aged.discrepancies opcode).trans ageLe
  even := aged.even

/-- A move that leaves clock and books alone does not age a board. -/
theorem move (aged : board.Aged bound age) (moved : Move board changed)
    (sameBooks : changed.audit = board.audit) (sameClock : changed.ticks = board.ticks) :
    changed.Aged (bound + 9) age where
  bounded := aged.bounded.move moved
  discrepancies opcode := by
    rw [sameBooks]
    exact aged.discrepancies opcode
  even := sameClock ▸ aged.even

theorem withBios (aged : board.Aged bound age) {bios : Rom} (filled : bios.Filled .bios) :
    { board with bios }.Aged bound age :=
  { aged with
    bounded := { aged.bounded with intact := { aged.bounded.intact with bios := filled } } }

theorem withCartridge (aged : board.Aged bound age) {cartridge : Rom}
    (filled : cartridge.Filled .cartridge) : { board with cartridge }.Aged bound age :=
  { aged with
    bounded := { aged.bounded with intact := { aged.bounded.intact with cartridge := filled } } }

theorem setTable (aged : board.Aged bound age) {table : CycleTable}
    (fits : table.entries.size < hostLimit) : (board.setTable table).Aged bound age :=
  { aged with
    bounded := { aged.bounded with intact := { aged.bounded.intact with table := fits } } }

/-- Carried to other images, a board is no older than it was. -/
theorem carriedTo (aged : board.Aged bound age) {host : Board} (intact : host.Intact) :
    (board.carriedTo host).Aged bound age :=
  { aged with
    bounded := { aged.bounded with intact := aged.bounded.intact.carriedTo intact } }

end Aged

end Board

namespace Machine

variable {σ : Type} [Core σ] {machine : Machine σ} {bound age : Nat}

/-- A young machine takes its next step. -/
theorem step_aged (aged : machine.board.Aged bound age) (room : bound + 99 < 2 ^ 62)
    (young : age + 1 < 2 ^ 32) :
    ∃ result, machine.step = .ok result ∧ result.machine.board.Aged (bound + 99) (age + 1) := by
  have few (opcode : UInt16) :
      (machine.board.audit.discrepancies.get opcode).toNat + 1 < 2 ^ 32 :=
    Nat.lt_of_le_of_lt (Nat.succ_le_succ (aged.discrepancies opcode)) young
  obtain ⟨result, stepped, bounded⟩ := step_bounded aged.bounded (by omega) few
  refine ⟨result, stepped, ?_⟩
  cases halted : machine.haltedAt with
  | some stackPointer =>
      rw [step_of_halted halted] at stepped
      cases stepped
      exact aged.mono (Nat.le_add_right bound 99) (Nat.le_succ age)
  | none =>
      have passed := passed_of_step halted stepped
      exact
        { bounded := bounded
          discrepancies := fun opcode =>
            (passed.discrepancies opcode).trans (Nat.succ_le_succ (aged.discrepancies opcode))
          even := by
            rw [passed.ticks, Nat.add_mod_right]
            exact aged.even }

/-- At power-on a machine has no age. -/
theorem aged_start (core : σ) (settings : Settings) : (start core settings).board.Aged 0 0 := by
  rw [start, board_holdReset]
  exact Board.aged_initial settings

/-- A young machine can go on. -/
theorem goOn_aged (aged : machine.board.Aged bound age) {n : Nat}
    (room : bound + 99 * n < 2 ^ 62) (young : age + n < 2 ^ 32) :
    ∃ after, machine.goOn n = .ok after ∧ after.board.Aged (bound + 99 * n) (age + n) := by
  induction n generalizing machine bound age with
  | zero => exact ⟨machine, rfl, aged⟩
  | succ n ih =>
      obtain ⟨result, stepped, next⟩ := step_aged aged (by omega) (by omega)
      obtain ⟨after, gone, last⟩ := ih next (by omega) (by omega)
      exact ⟨after, bind_eq_ok.mpr ⟨result, stepped, gone⟩, last.mono (by omega) (by omega)⟩

/-- A young machine runs to the end, if each step is such that the stack does not overflow
in it, and what one step preserves holds then. -/
theorem exists_run {Calm : Machine σ → Prop} (Holds : Nat → Machine σ → Prop)
    (advance : ∀ {m : Nat} {before : Machine σ} {result : Step σ}, Holds m before →
      Calm before → before.step = .ok result →
        result.overflow = none ∧ Holds (m + 1) result.machine)
    {m n : Nat} (held : Holds m machine) (aged : machine.board.Aged bound age)
    (room : bound + 99 * n < 2 ^ 62) (young : age + n < 2 ^ 32)
    (calm : ∀ i < n, ∀ before, machine.goOn i = .ok before → Calm before) :
    ∃ after, machine.run n = .ok (none, after) ∧ Holds (m + n) after := by
  induction n generalizing machine m bound age with
  | zero => exact ⟨machine, rfl, held⟩
  | succ n ih =>
      have first : Calm machine := calm 0 (Nat.succ_pos n) machine rfl
      obtain ⟨result, stepped, nextAged⟩ := step_aged aged (by omega) (by omega)
      obtain ⟨sound, nextHeld⟩ := advance held first stepped
      have others : ∀ i < n, ∀ before, result.machine.goOn i = .ok before → Calm before :=
        fun i below before gone =>
          calm (i + 1) (Nat.succ_lt_succ below) before (bind_eq_ok.mpr ⟨result, stepped, gone⟩)
      obtain ⟨after, ran, last⟩ := ih nextHeld nextAged (by omega) (by omega) others
      refine ⟨after, ?_, ?_⟩
      · rw [run_succ, stepped, ok_bind, sound]
        exact ran
      · rw [Nat.add_comm n 1, ← Nat.add_assoc]
        exact last

/-- The number of steps that a run takes. It ends with the first one that
overflows the stack. -/
def stepsTaken : Nat → Machine σ → Nat
  | 0, _ => 0
  | budget + 1, machine =>
    match machine.step with
    | .ok ⟨_, none, next⟩ => next.stepsTaken budget + 1
    | _ => 1

theorem stepsTaken_le (budget : Nat) (machine : Machine σ) : machine.stepsTaken budget ≤ budget := by
  induction budget generalizing machine with
  | zero => exact le_rfl
  | succ budget ih =>
      rw [stepsTaken]
      split
      · exact Nat.succ_le_succ (ih _)
      · exact Nat.succ_le_succ (Nat.zero_le _)

/-- A way of telling for how many more actions a machine is good, and for how many steps
among them. It looks at the board alone, so that the core may be any. -/
structure Stamina (σ : Type) [Core σ] (Holds : Nat → Nat → Board → Prop) : Prop where
  mono : ∀ {actions steps fewer less : Nat} {board : Board}, Holds actions steps board →
    fewer ≤ actions → less ≤ steps → Holds fewer less board
  ready : ∀ {actions steps : Nat} {board : Board}, Holds (actions + 1) steps board → board.Ready 1
  move : ∀ {actions steps : Nat} {board changed : Board}, Holds (actions + 1) steps board →
    Board.Move board changed → changed.audit = board.audit → changed.ticks = board.ticks →
      Holds actions steps changed
  step : ∀ {actions steps : Nat} {machine : Machine σ},
    Holds (actions + 1) (steps + 1) machine.board →
      ∃ result, machine.step = .ok result ∧ Holds actions steps result.machine.board
  bios : ∀ {actions steps : Nat} {board : Board} {bios : Rom}, Holds actions steps board →
    bios.Filled .bios → Holds actions steps { board with bios }
  cartridge : ∀ {actions steps : Nat} {board : Board} {cartridge : Rom},
    Holds actions steps board → cartridge.Filled .cartridge →
      Holds actions steps { board with cartridge }
  setTable : ∀ {actions steps : Nat} {board : Board} {table : CycleTable},
    Holds actions steps board → table.entries.size < hostLimit →
      Holds actions steps (board.setTable table)
  powerOn : ∀ {actions steps : Nat} {board : Board} (settings : Settings),
    Holds actions steps board → Holds actions steps (board.powerOn settings)

/-- A machine can go on until its load or its age reach a limit. -/
theorem stamina_aged {limit oldest : Nat} (room : limit < 2 ^ 62) (young : oldest < 2 ^ 32) :
    Stamina σ fun actions steps board =>
      ∃ bound age, board.Aged bound age ∧ bound + 99 * actions ≤ limit ∧ age + steps ≤ oldest where
  mono := by
    rintro actions steps fewer less board ⟨bound, age, aged, load, years⟩ fewerLe lessLe
    exact ⟨bound, age, aged, by omega, by omega⟩
  ready := by
    rintro actions steps board ⟨bound, age, aged, load, years⟩
    exact aged.bounded.ready (by omega)
  move := by
    rintro actions steps board changed ⟨bound, age, aged, load, years⟩ moved sameBooks sameClock
    exact ⟨bound + 9, age, aged.move moved sameBooks sameClock, by omega, years⟩
  step := by
    rintro actions steps machine ⟨bound, age, aged, load, years⟩
    obtain ⟨result, stepped, older⟩ := step_aged aged (by omega) (by omega)
    exact ⟨result, stepped, bound + 99, age + 1, older, by omega, by omega⟩
  bios := by
    rintro actions steps board bios ⟨bound, age, aged, limits⟩ filled
    exact ⟨bound, age, aged.withBios filled, limits⟩
  cartridge := by
    rintro actions steps board cartridge ⟨bound, age, aged, limits⟩ filled
    exact ⟨bound, age, aged.withCartridge filled, limits⟩
  setTable := by
    rintro actions steps board table ⟨bound, age, aged, limits⟩ fits
    exact ⟨bound, age, aged.setTable fits, limits⟩
  powerOn := by
    rintro actions steps board settings ⟨bound, age, aged, load, years⟩
    exact ⟨0, 0, aged.bounded.intact.aged_powerOn settings, by omega, by omega⟩

/-- A run costs as many actions as it takes steps. -/
theorem run_stamina {Holds : Nat → Nat → Board → Prop} (stamina : Stamina σ Holds)
    {actions steps budget : Nat}
    (held : Holds (actions + machine.stepsTaken budget) (steps + machine.stepsTaken budget)
      machine.board) :
    ∃ overflow after, machine.run budget = .ok (overflow, after) ∧
      Holds actions steps after.board := by
  induction budget generalizing machine with
  | zero => exact ⟨none, machine, rfl, held⟩
  | succ budget ih =>
      obtain ⟨rest, taken⟩ : ∃ rest, machine.stepsTaken (budget + 1) = rest + 1 := by
        rw [stepsTaken]
        split
        · exact ⟨_, rfl⟩
        · exact ⟨0, rfl⟩
      rw [taken] at held
      obtain ⟨⟨report, overflow, next⟩, stepped, nextHeld⟩ := stamina.step held
      rw [stepsTaken, stepped] at taken
      rw [run_succ, stepped, ok_bind]
      cases overflow with
      | some overflow =>
          exact ⟨some overflow, next, rfl,
            stamina.mono nextHeld (Nat.le_add_right _ _) (Nat.le_add_right _ _)⟩
      | none =>
          obtain rfl : next.stepsTaken budget = rest := Nat.succ.inj taken
          exact ih nextHeld

/-- A run ages a machine by one for every step it takes. -/
theorem run_aged {budget : Nat} (aged : machine.board.Aged bound age)
    (room : bound + 99 * machine.stepsTaken budget < 2 ^ 62)
    (young : age + machine.stepsTaken budget < 2 ^ 32) :
    ∃ overflow after, machine.run budget = .ok (overflow, after) ∧
      after.board.Aged (bound + 99 * machine.stepsTaken budget)
        (age + machine.stepsTaken budget) := by
  have held : ∃ reached years, machine.board.Aged reached years ∧
      reached + 99 * (0 + machine.stepsTaken budget) ≤
        bound + 99 * machine.stepsTaken budget ∧
      years + (0 + machine.stepsTaken budget) ≤ age + machine.stepsTaken budget :=
    ⟨bound, age, aged, by omega, by omega⟩
  obtain ⟨overflow, after, ran, reached, years, afterAged, load, older⟩ :=
    run_stamina (stamina_aged room young) held
  exact ⟨overflow, after, ran, afterAged.mono load older⟩

end Machine

end Handheld
