/-
# The stages of a step

A step that succeeds went through its stages one after the other: two half
cycles, the housekeeping, and, unless the stack has overflowed, the audit, the
end of reset and the bus transaction. This module takes a successful step apart
along those stages, and shows that to the board a step is a row of moves.
-/

import Handheld.Machine.Run
import Handheld.Proofs.Board.Moves

namespace Handheld.Machine

open Checked

variable {σ : Type} [Core σ]

theorem of_halfCycle {machine after : Machine σ} {level : Bool}
    (passed : machine.halfCycle level = .ok after) :
    ∃ toggled core board, machine.board.halfCycle = .ok (toggled, board) ∧
      after = { machine with core, board } := by
  obtain ⟨⟨toggled, board⟩, done, same⟩ := bind_eq_ok.mp passed
  cases same
  exact ⟨toggled, _, board, done, rfl⟩

/-- A whole cycle is for the core and the clocks. -/
theorem of_cycle {machine high low : Machine σ} (rising : machine.halfCycle true = .ok high)
    (falling : high.halfCycle false = .ok low) :
    ∃ core oscillator ticks, ticks.toNat = machine.board.ticks.toNat + 2 ∧
      low = { machine with core, board := { machine.board with oscillator, ticks } } := by
  obtain ⟨_, core, highBoard, passed, rfl⟩ := of_halfCycle rising
  obtain ⟨_, lowCore, lowBoard, lowPassed, rfl⟩ := of_halfCycle falling
  obtain ⟨oscillator, -, first, rfl⟩ := Board.of_halfCycle passed
  obtain ⟨lowOscillator, -, second, rfl⟩ := Board.of_halfCycle lowPassed
  exact ⟨lowCore, lowOscillator, _, second.trans (congrArg (· + 1) first), rfl⟩

/-- A capture that is not due does nothing. -/
theorem of_capture {core : σ} {board after : Board} {due : Bool} {shown : Option Presentation}
    (captured : capture core board due = .ok (shown, after)) :
    due = false ∧ after = board ∨
      due = true ∧ ∃ presentation,
        board.present (Core.lcdMemory core) (Core.lcdContrast core) =
          .ok (presentation, after) := by
  unfold capture at captured
  cases due with
  | false =>
      cases captured
      exact .inl ⟨rfl, rfl⟩
  | true =>
      obtain ⟨⟨presentation, changed⟩, done, same⟩ := bind_eq_ok.mp captured
      cases same
      exact .inr ⟨rfl, presentation, done⟩

/-- The stages of housekeeping, with the board after each of them. -/
theorem of_housekeep {core : σ} {settings : Settings} {sampled : Frame} {board after : Board}
    {report : StepReport} (kept : housekeep core settings sampled board = .ok (report, after)) :
    ∃ edges latched rendered shown refresh ticked refreshed drawn complaints audit,
      board.latchEdges sampled.probes = .ok (edges, latched) ∧
      capture core latched (edges.renderDone && settings.frameSource = .coreRenderDone) =
        .ok (rendered, shown) ∧
      shown.tickRegisters settings = .ok (refresh, ticked) ∧
      capture core ticked (refresh = some .frame && settings.frameSource = .refreshController) =
        .ok (refreshed, drawn) ∧
      drawn.audit.collectComplaints sampled.pins sampled.probes = .ok (complaints, audit) ∧
      after = { drawn with audit } ∧
      report =
        { timestamp := board.ticks
          sampled, edges, rendered, refresh
          rate := ticked.registers.refresh.rate
          refreshed, complaints } := by
  obtain ⟨⟨edges, latched⟩, latching, rest⟩ := bind_eq_ok.mp kept
  obtain ⟨⟨rendered, shown⟩, rendering, rest⟩ := bind_eq_ok.mp rest
  obtain ⟨⟨refresh, ticked⟩, ticking, rest⟩ := bind_eq_ok.mp rest
  obtain ⟨⟨refreshed, drawn⟩, drawing, rest⟩ := bind_eq_ok.mp rest
  obtain ⟨⟨complaints, audit⟩, collecting, same⟩ := bind_eq_ok.mp rest
  cases same
  exact ⟨edges, latched, rendered, shown, refresh, ticked, refreshed, drawn, complaints, audit,
    latching, rendering, ticking, drawing, collecting, rfl, rfl⟩

/-- A transaction changes the board by at most one bus access, which the pins ask
for. -/
theorem of_transfer {machine after : Machine σ} {sampled : Frame} {report : Transfer}
    (done : machine.transfer sampled = .ok (report, after)) :
    ∃ core board bus, after = { machine with core, board, bus } ∧
      (board = machine.board ∨
        (sampled.pins.busStatus = .memRead ∧ sampled.pins.pl = false ∧
          ∃ fetch, machine.board.fetch (.read sampled.pins.address) sampled.probes.codeBank =
            .ok (fetch, board)) ∨
        (sampled.pins.busStatus = .memWrite ∧ sampled.pins.write = true ∧
          ∃ store, machine.board.store (.write sampled.pins.address sampled.pins.dataOut) =
            .ok (store, board))) := by
  obtain ⟨pins, probes⟩ := sampled
  unfold transfer at done
  simp only at done
  split at done
  · rename_i reading
    split at done
    · cases done
      exact ⟨_, _, _, rfl, .inl rfl⟩
    · rename_i served
      obtain ⟨⟨fetch, board⟩, fetched, same⟩ := bind_eq_ok.mp done
      cases same
      exact ⟨_, _, _, rfl, .inr (.inl ⟨reading, Bool.eq_false_iff.mpr served, _, fetched⟩)⟩
  · rename_i writing
    split at done
    · rename_i strobed
      obtain ⟨⟨store, board⟩, stored, same⟩ := bind_eq_ok.mp done
      cases same
      exact ⟨_, _, _, rfl, .inr (.inr ⟨writing, strobed, _, stored⟩)⟩
    · cases done
      exact ⟨_, _, _, rfl, .inl rfl⟩
  · cases done
    exact ⟨_, _, _, rfl, .inl rfl⟩
  · cases done
    exact ⟨_, _, _, rfl, .inl rfl⟩

/-- The machine that carries out the transaction of a step: the core may have
left reset, and the audit has seen the frame. -/
def audited (machine : Machine σ) (report : StepReport) (audit : Audit) : Machine σ :=
  { machine with
    core :=
      if machine.settings.resetHalfCycles ≤ report.timestamp then
        Core.setReset false machine.core
      else machine.core
    board := { machine.board with
      audit := (audit.enterInterrupt report.sampled.pins report.timestamp
        machine.settings.irqGuardHalfCycles).2 } }

theorem of_finishStep {machine after : Machine σ} {report final : StepReport}
    (finished : machine.finishStep report = .ok (final, after)) :
    ∃ boundary audit transfer middle,
      machine.board.audit.observe report.sampled.pins report.sampled.probes report.timestamp =
        .ok (boundary, audit) ∧
      (machine.audited report audit).transfer report.sampled = .ok (transfer, middle) ∧
      final =
        { report with
          boundary
          interruptEntry := (audit.enterInterrupt report.sampled.pins report.timestamp
            machine.settings.irqGuardHalfCycles).1
          transfer } ∧
      after =
        { middle with
          board := { middle.board with
            audit := middle.board.audit.countCycle report.sampled.pins report.sampled.probes } } := by
  obtain ⟨⟨boundary, audit⟩, observed, rest⟩ := bind_eq_ok.mp finished
  obtain ⟨⟨transfer, middle⟩, moved, same⟩ := bind_eq_ok.mp rest
  cases same
  exact ⟨boundary, audit, transfer, middle, observed, moved, rfl, rfl⟩

/-- The frame that the core shows. -/
def shownFrame (machine : Machine σ) : Frame :=
  ⟨Core.pins machine.core, Core.probes machine.core⟩

/-- The stages of a step of a machine that is not halted. -/
theorem of_step {machine : Machine σ} {result : Step σ} (awake : machine.haltedAt = none)
    (stepped : machine.step = .ok result) :
    ∃ high low report board,
      machine.halfCycle true = .ok high ∧ high.halfCycle false = .ok low ∧
      housekeep low.core low.settings low.shownFrame low.board = .ok (report, board) ∧
      ((∃ stackPointer, overflowOf report.complaints = some stackPointer ∧
          result =
            { report := some report
              overflow := some ⟨stackPointer, report.timestamp⟩
              machine := { low with board, haltedAt := some stackPointer } }) ∨
        (overflowOf report.complaints = none ∧
          ∃ final after,
            finishStep { low with board } report = .ok (final, after) ∧
            result = { report := some final, overflow := none, machine := after })) := by
  unfold step at stepped
  rw [awake] at stepped
  obtain ⟨high, rising, rest⟩ := bind_eq_ok.mp stepped
  obtain ⟨low, falling, rest⟩ := bind_eq_ok.mp rest
  obtain ⟨⟨report, board⟩, kept, rest⟩ := bind_eq_ok.mp rest
  refine ⟨high, low, report, board, rising, falling, kept, ?_⟩
  dsimp only at rest
  split at rest
  · rename_i stackPointer overflowed
    cases rest
    exact .inl ⟨stackPointer, overflowed, rfl⟩
  · rename_i sound
    obtain ⟨⟨final, after⟩, finished, same⟩ := bind_eq_ok.mp rest
    cases same
    exact .inr ⟨sound, final, after, finished, rfl⟩

/-- A halted machine stays as it is and reports its stack pointer again. -/
theorem step_of_halted {machine : Machine σ} {stackPointer : UInt16}
    (halted : machine.haltedAt = some stackPointer) :
    machine.step =
      .ok
        { report := none
          overflow := some ⟨stackPointer, machine.board.ticks⟩
          machine := machine } := by
  simp [step, halted]

open Board (Move Moves)

theorem moves_of_halfCycle {machine after : Machine σ} {level : Bool}
    (passed : machine.halfCycle level = .ok after) : Moves machine.board after.board := by
  obtain ⟨toggled, core, board, done, rfl⟩ := of_halfCycle passed
  exact .single (.halfCycle done)

theorem moves_of_capture {core : σ} {board after : Board} {due : Bool}
    {shown : Option Presentation} (captured : capture core board due = .ok (shown, after)) :
    Moves board after := by
  rcases of_capture captured with ⟨-, rfl⟩ | ⟨-, presentation, done⟩
  · exact .refl
  · exact .single (.present _ _ done)

theorem moves_of_housekeep {core : σ} {settings : Settings} {sampled : Frame}
    {board after : Board} {report : StepReport}
    (kept : housekeep core settings sampled board = .ok (report, after)) : Moves board after := by
  obtain ⟨edges, latched, rendered, shown, refresh, ticked, refreshed, drawn, complaints, audit,
    latching, rendering, ticking, drawing, collecting, rfl, -⟩ := of_housekeep kept
  have latchMove : Move board latched := .latchEdges _ latching
  have tickMove : Move shown ticked := .tickRegisters _ ticking
  have auditMove : Move drawn { drawn with audit } := .collectComplaints _ _ collecting
  exact ((((Relation.ReflTransGen.single latchMove).trans (moves_of_capture rendering)).tail
    tickMove).trans (moves_of_capture drawing)).tail auditMove

theorem moves_of_transfer {machine after : Machine σ} {sampled : Frame} {report : Transfer}
    (done : machine.transfer sampled = .ok (report, after)) :
    Moves machine.board after.board := by
  obtain ⟨core, board, bus, rfl, rfl | ⟨-, -, _, fetched⟩ | ⟨-, -, _, stored⟩⟩ := of_transfer done
  · exact .refl
  · exact .single (.fetch _ _ fetched)
  · exact .single (.store _ stored)

theorem moves_of_finishStep {machine after : Machine σ} {report final : StepReport}
    (finished : machine.finishStep report = .ok (final, after)) :
    Moves machine.board after.board := by
  obtain ⟨boundary, audit, transfer, middle, observed, moved, -, rfl⟩ := of_finishStep finished
  have observeMove : Move machine.board { machine.board with audit } :=
    .observe _ _ _ observed
  have enterMove : Move { machine.board with audit } (machine.audited report audit).board :=
    .enterInterrupt report.sampled.pins report.timestamp machine.settings.irqGuardHalfCycles
      { machine.board with audit }
  exact (((Relation.ReflTransGen.single observeMove).tail enterMove).trans
    (moves_of_transfer moved)).tail (.countCycle _ _ _)

/-- To the board a step is a row of moves, whatever the core does. -/
theorem moves_of_step {machine : Machine σ} {result : Step σ}
    (stepped : machine.step = .ok result) : Moves machine.board result.machine.board := by
  cases halted : machine.haltedAt with
  | some stackPointer =>
      rw [step_of_halted halted] at stepped
      cases stepped
      exact .refl
  | none =>
      obtain ⟨high, low, report, board, rising, falling, kept, rest⟩ := of_step halted stepped
      have housekept : Moves machine.board board :=
        ((moves_of_halfCycle rising).trans (moves_of_halfCycle falling)).trans
          (moves_of_housekeep kept)
      obtain ⟨stackPointer, -, rfl⟩ | ⟨-, final, after, finished, rfl⟩ := rest
      · exact housekept
      · exact housekept.trans (moves_of_finishStep finished)

/-- Housekeeping succeeds when its stages do. -/
theorem housekeep_of_stages {core : σ} {settings : Settings} {sampled : Frame}
    {board latched shown ticked drawn : Board} {edges : Edges}
    {rendered refreshed : Option Presentation} {refresh : Option RefreshTick}
    {complaints : List Complaint} {audit : Audit}
    (latching : board.latchEdges sampled.probes = .ok (edges, latched))
    (rendering : capture core latched
      (edges.renderDone && settings.frameSource = .coreRenderDone) = .ok (rendered, shown))
    (ticking : shown.tickRegisters settings = .ok (refresh, ticked))
    (drawing : capture core ticked
      (refresh = some .frame && settings.frameSource = .refreshController) =
        .ok (refreshed, drawn))
    (collecting : drawn.audit.collectComplaints sampled.pins sampled.probes =
      .ok (complaints, audit)) :
    housekeep core settings sampled board = .ok
      ({ timestamp := board.ticks
         sampled, edges, rendered, refresh
         rate := ticked.registers.refresh.rate
         refreshed, complaints },
       { drawn with audit }) := by
  unfold housekeep
  refine bind_eq_ok.mpr ⟨_, latching, bind_eq_ok.mpr ⟨_, rendering, ?_⟩⟩
  refine bind_eq_ok.mpr ⟨_, ticking, bind_eq_ok.mpr ⟨_, drawing, ?_⟩⟩
  exact bind_eq_ok.mpr ⟨_, collecting, rfl⟩

theorem finishStep_eq_ok {machine middle : Machine σ} {report : StepReport}
    {boundary : Option Boundary} {audit : Audit} {transfer : Transfer}
    (observed : machine.board.audit.observe report.sampled.pins report.sampled.probes
      report.timestamp = .ok (boundary, audit))
    (moved : (machine.audited report audit).transfer report.sampled = .ok (transfer, middle)) :
    ∃ final, machine.finishStep report = .ok (final,
      { middle with
        board := { middle.board with
          audit := middle.board.audit.countCycle report.sampled.pins report.sampled.probes } }) := by
  refine ⟨{ report with
    boundary
    interruptEntry := (audit.enterInterrupt report.sampled.pins report.timestamp
      machine.settings.irqGuardHalfCycles).1
    transfer }, ?_⟩
  unfold finishStep
  dsimp only
  rw [observed, ok_bind]
  exact bind_eq_ok.mpr ⟨_, moved, rfl⟩

/-- A step succeeds when its stages do and nothing overflows the stack. -/
theorem step_eq_ok {machine high low after : Machine σ} {report final : StepReport} {board : Board}
    (awake : machine.haltedAt = none) (rising : machine.halfCycle true = .ok high)
    (falling : high.halfCycle false = .ok low)
    (kept : housekeep low.core low.settings low.shownFrame low.board = .ok (report, board))
    (sound : overflowOf report.complaints = none)
    (finished : finishStep { low with board } report = .ok (final, after)) :
    machine.step = .ok { report := some final, overflow := none, machine := after } := by
  unfold step
  rw [awake]
  refine bind_eq_ok.mpr ⟨high, rising, bind_eq_ok.mpr ⟨low, falling, ?_⟩⟩
  refine bind_eq_ok.mpr ⟨(report, board), kept, ?_⟩
  dsimp only
  rw [sound]
  exact bind_eq_ok.mpr ⟨(final, after), finished, rfl⟩

/-- A step that finds the stack pointer beyond its limit halts the machine. -/
theorem step_of_overflow {machine high low : Machine σ} {report : StepReport} {board : Board}
    {stackPointer : UInt16} (awake : machine.haltedAt = none)
    (rising : machine.halfCycle true = .ok high) (falling : high.halfCycle false = .ok low)
    (kept : housekeep low.core low.settings low.shownFrame low.board = .ok (report, board))
    (overflowed : overflowOf report.complaints = some stackPointer) :
    machine.step =
      .ok
        { report := some report
          overflow := some ⟨stackPointer, report.timestamp⟩
          machine := { low with board, haltedAt := some stackPointer } } := by
  unfold step
  rw [awake]
  refine bind_eq_ok.mpr ⟨high, rising, bind_eq_ok.mpr ⟨low, falling, ?_⟩⟩
  refine bind_eq_ok.mpr ⟨(report, board), kept, ?_⟩
  dsimp only
  rw [overflowed]

theorem board_forwardKeys (machine : Machine σ) : machine.forwardKeys.board = machine.board := by
  unfold forwardKeys
  split <;> rfl

theorem board_holdReset (machine : Machine σ) : machine.holdReset.board = machine.board := by
  unfold holdReset
  exact board_forwardKeys _

theorem board_setKeys (machine : Machine σ) (keys : Keys) :
    (machine.setKeys keys).board = machine.board.setKeys keys := by
  unfold setKeys
  rw [board_forwardKeys]

/-- Nothing but the core hears of the keys. -/
theorem flags_forwardKeys (machine : Machine σ) :
    machine.forwardKeys.settings = machine.settings ∧
      machine.forwardKeys.running = machine.running ∧
      machine.forwardKeys.haltedAt = machine.haltedAt := by
  unfold forwardKeys
  split
  · exact ⟨rfl, rfl, rfl⟩
  · exact ⟨rfl, rfl, rfl⟩

theorem flags_holdReset (machine : Machine σ) :
    machine.holdReset.settings = machine.settings ∧
      machine.holdReset.running = machine.running ∧
      machine.holdReset.haltedAt = machine.haltedAt :=
  flags_forwardKeys _

theorem settings_start (core : σ) (settings : Settings) :
    (start core settings).settings = settings ∧ (start core settings).haltedAt = none :=
  ⟨(flags_holdReset _).1, (flags_holdReset _).2.2⟩

end Handheld.Machine
