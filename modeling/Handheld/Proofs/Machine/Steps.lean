/-
# Rows of successful steps

A machine that steps without overflowing its stack leaves a row of reports, one
for each step. Statements about whole runs are made about such rows; `Machine.run`
succeeds exactly along them.

To the clock and to the audit a step is simple: two half cycles pass, and the
audit sees the sampled frame once, whatever else the frame brings about.
-/

import Handheld.Proofs.Machine.Stages

namespace Handheld.Machine

open Checked

variable {σ : Type} [Core σ]

/-- The machine takes steps with these reports, the first one first, and has
become `after`. -/
inductive Steps : Machine σ → List StepReport → Machine σ → Prop
  | nil (machine : Machine σ) : Steps machine [] machine
  | cons {machine next after : Machine σ} {report : StepReport} {reports : List StepReport} :
      machine.step = .ok { report := some report, overflow := none, machine := next } →
        Steps next reports after → Steps machine (report :: reports) after

variable {machine after : Machine σ} {report : StepReport}

/-- Two rows of steps, one after the other, are a row of steps. -/
theorem Steps.append {next : Machine σ} {first second : List StepReport}
    (steps : Steps machine first next) (more : Steps next second after) :
    Steps machine (first ++ second) after := by
  induction steps with
  | nil => exact more
  | cons stepped _ ih => exact .cons stepped (ih more)

/-- A step without an overflow has a report, because the machine was not halted. -/
theorem awake_of_step {result : Step σ} (stepped : machine.step = .ok result)
    (sound : result.overflow = none) :
    machine.haltedAt = none ∧ ∃ report, result.report = some report := by
  cases halted : machine.haltedAt with
  | some stackPointer =>
      rw [step_of_halted halted] at stepped
      cases stepped
      cases sound
  | none =>
      obtain ⟨high, low, report, board, -, -, -, rest⟩ := of_step halted stepped
      obtain ⟨stackPointer, -, rfl⟩ | ⟨-, final, after, -, rfl⟩ := rest
      · cases sound
      · exact ⟨rfl, final, rfl⟩

/-- A run that reaches its end is a row of steps. -/
theorem run_eq_ok_iff {n : Nat} :
    machine.run n = .ok (none, after) ↔ ∃ reports, reports.length = n ∧ Steps machine reports after := by
  have noting : machine.runNoting (fun _ _ => ()) n () = .ok ((), none, after) ↔
      ∃ reports, reports.length = n ∧ Steps machine reports after := by
    induction n generalizing machine with
    | zero =>
        constructor
        · intro ran
          cases ran
          exact ⟨[], rfl, .nil _⟩
        · rintro ⟨reports, empty, steps⟩
          cases List.length_eq_zero_iff.mp empty
          cases steps
          rfl
    | succ n ih =>
        constructor
        · intro ran
          obtain ⟨⟨report, overflow, next⟩, stepped, rest⟩ := bind_eq_ok.mp ran
          cases overflow with
          | some overflow => cases rest
          | none =>
              obtain ⟨-, report, rfl⟩ := awake_of_step stepped rfl
              obtain ⟨reports, length, steps⟩ := ih.mp rest
              exact ⟨report :: reports, by rw [List.length_cons, length], .cons stepped steps⟩
        · rintro ⟨reports, length, steps⟩
          cases steps with
          | nil => cases length
          | cons stepped steps =>
              rw [List.length_cons, Nat.add_right_cancel_iff] at length
              rw [runNoting, stepped]
              exact ih.mpr ⟨_, length, steps⟩
  rw [← noting, run]
  constructor
  · intro ran
    obtain ⟨⟨⟨⟩, result⟩, noted, same⟩ := bind_eq_ok.mp ran
    cases same
    exact noted
  · intro noted
    rw [noted, ok_bind]

theorem run_succ (machine : Machine σ) (n : Nat) :
    machine.run (n + 1) = machine.step >>= fun result =>
      match result.overflow with
      | some overflow => .ok (some overflow, result.machine)
      | none => result.machine.run n := by
  unfold run
  rw [runNoting]
  cases machine.step with
  | error fault => rfl
  | ok result =>
      obtain ⟨report, overflow, after⟩ := result
      cases overflow <;> rfl

/-- What every step keeps, a run keeps. -/
theorem run_invariant (holds : Machine σ → Prop)
    (keeps : ∀ before result, holds before → before.step = .ok result → holds result.machine)
    {n : Nat} {overflow : Option StackOverflow} (atStart : holds machine)
    (ran : machine.run n = .ok (overflow, after)) : holds after := by
  induction n generalizing machine with
  | zero =>
      cases ran
      exact atStart
  | succ n ih =>
      rw [run_succ] at ran
      obtain ⟨⟨report, stepOverflow, next⟩, stepped, rest⟩ := bind_eq_ok.mp ran
      have kept : holds next := keeps machine _ atStart stepped
      cases stepOverflow with
      | some stepOverflow =>
          cases rest
          exact kept
      | none => exact ih kept rest

/-- A run of `m + n` steps is a run of `m`, followed by one of `n` unless the stack
has overflowed. -/
theorem run_add (machine : Machine σ) (m n : Nat) :
    machine.run (m + n) = machine.run m >>= fun (overflow, middle) =>
      match overflow with
      | some overflow => .ok (some overflow, middle)
      | none => middle.run n := by
  induction m generalizing machine with
  | zero =>
      rw [Nat.zero_add]
      rfl
  | succ m ih =>
      rw [Nat.add_right_comm, run_succ, run_succ]
      cases machine.step with
      | error fault => rfl
      | ok result =>
          obtain ⟨report, overflow, next⟩ := result
          cases overflow with
          | some overflow => rfl
          | none => exact ih next

/-- Take `n` steps, going on after a stack overflow. -/
def goOn : Nat → Machine σ → Checked (Machine σ)
  | 0, machine => .ok machine
  | n + 1, machine => do
    let result ← machine.step
    result.machine.goOn n

/-- The step that follows the first `n`. -/
def stepAfter (n : Nat) (machine : Machine σ) : Checked (Step σ) := do
  let machine ← machine.goOn n
  machine.step

theorem goOn_add (machine : Machine σ) (m n : Nat) :
    machine.goOn (m + n) = machine.goOn m >>= goOn n := by
  induction m generalizing machine with
  | zero =>
      rw [Nat.zero_add]
      rfl
  | succ m ih =>
      rw [Nat.add_right_comm, goOn, goOn]
      cases machine.step with
      | error fault => rfl
      | ok result => exact ih result.machine

/-- Going on for one more step is to take the step that follows. -/
theorem goOn_succ (machine : Machine σ) (n : Nat) :
    machine.goOn (n + 1) = (machine.stepAfter n).map Step.machine := by
  rw [goOn_add, stepAfter]
  cases machine.goOn n with
  | error fault => rfl
  | ok middle =>
      show middle.goOn 1 = middle.step.map Step.machine
      rw [goOn]
      cases middle.step <;> rfl

/-- The number of steps that a frame may take. -/
def frameBudget (machine : Machine σ) : Nat :=
  if machine.running then machine.settings.stepsPerFrame.toNat else 0

/-- The steps of a frame are a run. What is said of them is where the stack
overflowed, or else whether a frame was shown. -/
theorem runFrame_eq (machine : Machine σ) :
    machine.runFrame = (machine.run machine.frameBudget).map fun (overflow, after) =>
      (match overflow with
        | some overflow => .error overflow
        | none => .ok (after.board.screen.frames != machine.board.screen.frames), after) := by
  unfold runFrame runFrameNoting run frameBudget
  dsimp only
  cases machine.runNoting (fun _ _ => ())
      (if machine.running then machine.settings.stepsPerFrame.toNat else 0) () with
  | error fault => rfl
  | ok result =>
      obtain ⟨⟨⟩, overflow, after⟩ := result
      cases overflow <;> rfl

/-- Only the host pauses a machine, and nobody changes its settings. -/
theorem flags_of_step {result : Step σ} (stepped : machine.step = .ok result) :
    result.machine.settings = machine.settings ∧ result.machine.running = machine.running := by
  cases halted : machine.haltedAt with
  | some stackPointer =>
      rw [step_of_halted halted] at stepped
      cases stepped
      exact ⟨rfl, rfl⟩
  | none =>
      obtain ⟨high, low, report, board, rising, falling, -, rest⟩ := of_step halted stepped
      obtain ⟨core, oscillator, ticks, -, rfl⟩ := of_cycle rising falling
      obtain ⟨stackPointer, -, rfl⟩ | ⟨-, final, after, finished, rfl⟩ := rest
      · exact ⟨rfl, rfl⟩
      · obtain ⟨boundary, audit, transfer, middle, -, moved, -, rfl⟩ := of_finishStep finished
        obtain ⟨core, board, bus, rfl, -⟩ := of_transfer moved
        exact ⟨rfl, rfl⟩

theorem flags_of_run {n : Nat} {overflow : Option StackOverflow}
    (ran : machine.run n = .ok (overflow, after)) :
    after.settings = machine.settings ∧ after.running = machine.running := by
  refine run_invariant (fun reached => reached.settings = machine.settings ∧
    reached.running = machine.running) ?_ ⟨rfl, rfl⟩ ran
  rintro before result ⟨sameSettings, sameRunning⟩ stepped
  obtain ⟨settings, running⟩ := flags_of_step stepped
  exact ⟨settings.trans sameSettings, running.trans sameRunning⟩

theorem audit_of_capture {core : σ} {board captured : Board} {due : Bool}
    {shown : Option Presentation} (done : capture core board due = .ok (shown, captured)) :
    captured.audit = board.audit ∧ captured.ticks = board.ticks := by
  rcases of_capture done with ⟨-, rfl⟩ | ⟨-, presentation, presented⟩
  · exact ⟨rfl, rfl⟩
  · obtain ⟨ram, screen, -, -, -, rfl⟩ := Board.of_present presented
    exact ⟨rfl, rfl⟩

theorem audit_of_housekeep {core : σ} {settings : Settings} {sampled : Frame}
    {board kept : Board} (done : housekeep core settings sampled board = .ok (report, kept)) :
    report.sampled = sampled ∧ report.timestamp = board.ticks ∧ kept.ticks = board.ticks ∧
      ∃ complaints, kept.audit = { board.audit with complaints } := by
  obtain ⟨edges, latched, rendered, shown, refresh, ticked, refreshed, drawn, complaints, audit,
    latching, rendering, ticking, drawing, collecting, rfl, rfl⟩ := of_housekeep done
  obtain ⟨cells, -, rfl⟩ := Board.of_latchEdges latching
  obtain ⟨shownAudit, shownTicks⟩ := audit_of_capture rendering
  obtain ⟨registers, -, rfl⟩ := Board.of_tickRegisters ticking
  obtain ⟨drawnAudit, drawnTicks⟩ := audit_of_capture drawing
  obtain ⟨-, count, rfl⟩ := Audit.of_collectComplaints collecting
  refine ⟨rfl, rfl, drawnTicks.trans shownTicks, count, ?_⟩
  show { drawn.audit with complaints := count } = _
  rw [drawnAudit, shownAudit]

theorem audit_of_transfer {sampled : Frame} {transfer : Transfer}
    (done : machine.transfer sampled = .ok (transfer, after)) :
    after.board.audit = machine.board.audit ∧ after.board.ticks = machine.board.ticks ∧
      after.settings = machine.settings ∧ after.haltedAt = machine.haltedAt := by
  obtain ⟨core, board, bus, rfl, rfl | ⟨-, -, _, fetched⟩ | ⟨-, -, _, stored⟩⟩ := of_transfer done
  · exact ⟨rfl, rfl, rfl, rfl⟩
  · obtain ⟨bios, cartridge, incidents, -, -, rfl⟩ := Board.of_fetch fetched
    exact ⟨rfl, rfl, rfl, rfl⟩
  · obtain ⟨ram, registers, incidents, -, -, rfl⟩ := Board.of_store stored
    exact ⟨rfl, rfl, rfl, rfl⟩

/-- What a step that does not overflow the stack does to clock and audit. Two half
cycles pass; the audit looks for a boundary in the sampled frame, then for an
interrupt entry, and counts the cycle last. -/
structure AuditStep (machine : Machine σ) (report : StepReport) (after : Machine σ) : Prop where
  awake : after.haltedAt = none
  settings : after.settings = machine.settings
  ticks : after.board.ticks.toNat = machine.board.ticks.toNat + 2
  timestamp : report.timestamp = after.board.ticks
  audit : ∃ complaints observed,
    { machine.board.audit with complaints }.observe report.sampled.pins report.sampled.probes
        report.timestamp = .ok (report.boundary, observed) ∧
      after.board.audit =
        (observed.enterInterrupt report.sampled.pins report.timestamp
          machine.settings.irqGuardHalfCycles).2.countCycle
            report.sampled.pins report.sampled.probes

theorem auditStep_of_step
    (stepped : machine.step = .ok { report := some report, overflow := none, machine := after }) :
    AuditStep machine report after := by
  obtain ⟨awake, -⟩ := awake_of_step stepped rfl
  obtain ⟨high, low, kept, board, rising, falling, housekept, rest⟩ := of_step awake stepped
  obtain ⟨core, oscillator, clock, passed, rfl⟩ := of_cycle rising falling
  obtain ⟨sampled, timestamp, ticks, complaints, audit⟩ := audit_of_housekeep housekept
  obtain ⟨stackPointer, -, impossible⟩ | ⟨-, final, last, finished, same⟩ := rest
  · cases impossible
  cases same
  obtain ⟨boundary, observed, transfer, middle, observing, moved, rfl, rfl⟩ :=
    of_finishStep finished
  obtain ⟨movedAudit, movedTicks, movedSettings, movedHalt⟩ := audit_of_transfer moved
  refine
    { awake := movedHalt.trans awake
      settings := movedSettings
      ticks := ?_
      timestamp := ?_
      audit := ⟨complaints, observed, ?_, ?_⟩ }
  · have passes : middle.board.ticks = clock := movedTicks.trans ticks
    show middle.board.ticks.toNat = _
    rw [passes]
    exact passed
  · exact timestamp.trans (movedTicks.trans ticks).symm
  · show Audit.observe { machine.board.audit with complaints } kept.sampled.pins
      kept.sampled.probes kept.timestamp = _
    rw [← observing]
    exact congrArg (Audit.observe · _ _ _) audit.symm
  · show middle.board.audit.countCycle _ _ = _
    rw [movedAudit]
    rfl

/-- A step that does not overflow the stack leaves the machine awake. -/
theorem haltedAt_of_step {result : Step σ} (stepped : machine.step = .ok result)
    (sound : result.overflow = none) : result.machine.haltedAt = none := by
  obtain ⟨-, report, reported⟩ := awake_of_step stepped sound
  obtain ⟨_, _, after⟩ := result
  cases reported
  cases sound
  exact (auditStep_of_step stepped).awake

end Handheld.Machine
