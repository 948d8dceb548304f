/-
# Halting

A stack pointer beyond its limit halts a machine, and it stays halted until the
next reset: every further step reports the same overflow and changes nothing.
Hence it does not matter how a run is divided into shorter ones, as long as the
host goes on after an error.

Which step overflows the stack is said without reference to the audit: it is the
first one before which the core is about to show a frame, outside the
program-load phase, with its stack pointer beyond the limit.
-/

import Handheld.Core.Scripted
import Handheld.Proofs.Machine.Actions
import Handheld.Proofs.Machine.PowerOn

namespace Handheld.Machine

open Checked

variable {σ : Type} [Core σ] {machine after : Machine σ} {overflow : StackOverflow}

omit [Core σ] in
/-- The machine was halted by this overflow. -/
structure Frozen (machine : Machine σ) (overflow : StackOverflow) : Prop where
  stackPointer : machine.haltedAt = some overflow.stackPointer
  timestamp : machine.board.ticks = overflow.timestamp

namespace Frozen

variable (frozen : machine.Frozen overflow)
include frozen

theorem step : machine.step = .ok ⟨none, some overflow, machine⟩ := by
  rw [step_of_halted frozen.stackPointer, frozen.timestamp]

theorem run (n : Nat) : machine.run (n + 1) = .ok (some overflow, machine) := by
  rw [run_succ, frozen.step, ok_bind]

theorem goOn (n : Nat) : machine.goOn n = .ok machine := by
  induction n with
  | zero => rfl
  | succ n ih => rw [Machine.goOn, frozen.step, ok_bind, ih]

/-- A run of any length leaves a frozen machine as it is. -/
theorem run_keeps (n : Nat) : ∃ result, machine.run n = .ok (result, machine) ∧
    ∀ other, result = some other → other = overflow := by
  cases n with
  | zero => exact ⟨none, rfl, nofun⟩
  | succ n =>
      refine ⟨some overflow, frozen.run n, ?_⟩
      rintro other ⟨⟩
      rfl

theorem runFrame (running : machine.running = true)
    (positive : 0 < machine.settings.stepsPerFrame) :
    machine.runFrame = .ok (.error overflow, machine) := by
  have budget : machine.frameBudget = machine.settings.stepsPerFrame.toNat - 1 + 1 := by
    rw [frameBudget, if_pos running]
    exact (Nat.sub_add_cancel (UInt32.lt_iff_toNat_lt.mp positive)).symm
  rw [runFrame_eq, budget, frozen.run]
  rfl

/-- Only a reset wakes a frozen machine. -/
theorem perform {action : Action σ} (kept : action ≠ .reset)
    (performed : machine.perform action = .ok after) : after.Frozen overflow := by
  cases action with
  | loadBios image =>
      cases performed
      cases loaded : machine.loadBios image with
      | error refusal => exact frozen
      | ok loadedMachine =>
          obtain ⟨bios, -, same⟩ := bind_eq_ok.mp loaded
          cases same
          exact ⟨frozen.stackPointer, frozen.timestamp⟩
  | loadCartridge image =>
      cases performed
      cases loaded : machine.loadCartridge image with
      | error refusal => exact frozen
      | ok loadedMachine =>
          obtain ⟨cartridge, -, same⟩ := bind_eq_ok.mp loaded
          cases same
          exact ⟨frozen.stackPointer, frozen.timestamp⟩
  | setTable table =>
      cases performed
      exact ⟨frozen.stackPointer, frozen.timestamp⟩
  | setKeys keys =>
      cases performed
      refine ⟨(flags_forwardKeys _).2.2.trans frozen.stackPointer, ?_⟩
      rw [board_setKeys]
      exact frozen.timestamp
  | setRunning running =>
      cases performed
      exact ⟨frozen.stackPointer, frozen.timestamp⟩
  | pokeRegister offset data =>
      obtain ⟨⟨write, poked⟩, done, rfl⟩ := of_map_eq_ok performed
      obtain ⟨⟨report, board⟩, written, same⟩ := bind_eq_ok.mp done
      obtain ⟨registers, incidents, -, -, rfl⟩ := Board.of_writeRegister written
      cases same
      exact ⟨frozen.stackPointer, frozen.timestamp⟩
  | peekRegister offset =>
      obtain ⟨byte, -, rfl⟩ := of_map_eq_ok performed
      exact frozen
  | raise offset mask =>
      obtain ⟨⟨raised, changed⟩, done, rfl⟩ := of_map_eq_ok performed
      obtain ⟨⟨latched, registers⟩, -, same⟩ := bind_eq_ok.mp done
      cases same
      exact ⟨frozen.stackPointer, frozen.timestamp⟩
  | view address =>
      obtain ⟨byte, -, rfl⟩ := of_map_eq_ok performed
      exact frozen
  | coverage =>
      obtain ⟨report, -, rfl⟩ := of_map_eq_ok performed
      exact frozen
  | takeRedraw =>
      cases performed
      exact ⟨frozen.stackPointer, frozen.timestamp⟩
  | exchangeCore core =>
      cases performed
      exact ⟨frozen.stackPointer, frozen.timestamp⟩
  | step =>
      rw [Machine.perform, frozen.step] at performed
      cases performed
      exact frozen
  | run budget =>
      obtain ⟨result, ran, -⟩ := frozen.run_keeps budget
      rw [Machine.perform, ran] at performed
      cases performed
      exact frozen
  | runFrame =>
      obtain ⟨result, ran, -⟩ := frozen.run_keeps machine.frameBudget
      rw [Machine.perform, runFrame_eq, ran] at performed
      cases performed
      exact frozen
  | reset => exact absurd rfl kept

theorem performAll {actions : List (Action σ)} (kept : .reset ∉ actions)
    (performed : machine.performAll actions = .ok after) : after.Frozen overflow := by
  induction actions generalizing machine with
  | nil =>
      cases performed
      exact frozen
  | cons action rest ih =>
      obtain ⟨next, first, last⟩ := bind_eq_ok.mp performed
      rw [List.mem_cons, not_or] at kept
      exact ih (frozen.perform (Ne.symm kept.1) first) kept.2 last

end Frozen

/-- A step that overflows the stack freezes the machine. -/
theorem frozen_of_step {result : Step σ} (stepped : machine.step = .ok result)
    (failed : result.overflow = some overflow) : result.machine.Frozen overflow := by
  cases halted : machine.haltedAt with
  | some stackPointer =>
      rw [step_of_halted halted] at stepped
      cases stepped
      cases failed
      exact ⟨halted, rfl⟩
  | none =>
      obtain ⟨high, low, report, board, -, -, housekept, rest⟩ := of_step halted stepped
      obtain ⟨-, timestamp, ticks, -⟩ := audit_of_housekeep housekept
      obtain ⟨stackPointer, -, rfl⟩ | ⟨-, final, last, -, rfl⟩ := rest
      · cases failed
        exact ⟨rfl, ticks.trans timestamp.symm⟩
      · cases failed

theorem frozen_of_run {n : Nat} (ran : machine.run n = .ok (some overflow, after)) :
    after.Frozen overflow := by
  induction n generalizing machine with
  | zero => cases ran
  | succ n ih =>
      rw [run_succ] at ran
      obtain ⟨⟨report, failed, next⟩, stepped, rest⟩ := bind_eq_ok.mp ran
      cases failed with
      | some failed =>
          cases rest
          exact frozen_of_step stepped rfl
      | none => exact ih rest

/-- Run in chunks, going on after errors, and collect what every chunk says. -/
def runAll : List Nat → Machine σ → Checked (List (Option StackOverflow) × Machine σ)
  | [], machine => .ok ([], machine)
  | n :: budgets, machine => do
    let (overflow, machine) ← machine.run n
    let (overflows, machine) ← machine.runAll budgets
    .ok (overflow :: overflows, machine)

/-- A frozen machine says in every chunk what it said before, or nothing. -/
theorem Frozen.runAll (frozen : machine.Frozen overflow) (budgets : List Nat) :
    ∃ overflows, machine.runAll budgets = .ok (overflows, machine) ∧
      ∀ other, some other ∈ overflows → other = overflow := by
  induction budgets with
  | nil => exact ⟨[], rfl, fun other said => absurd said List.not_mem_nil⟩
  | cons n budgets ih =>
      obtain ⟨overflows, ranAll, same⟩ := ih
      obtain ⟨first, ran, firstSame⟩ := frozen.run_keeps n
      refine ⟨first :: overflows, ?_, ?_⟩
      · rw [Machine.runAll, ran, ok_bind]
        dsimp only
        rw [ranAll, ok_bind]
      · intro other said
        rcases List.mem_cons.mp said with here | later
        · exact firstSame other here.symm
        · exact same other later

/-- What the chunks say is what the whole run says: they end in the same machine,
and the errors among them are its error. -/
def SameRun (chunks : List (Option StackOverflow) × Machine σ)
    (whole : Option StackOverflow × Machine σ) : Prop :=
  chunks.2 = whole.2 ∧ ∀ overflow, some overflow ∈ chunks.1 ↔ whole.1 = some overflow

theorem runAll_alike (machine : Machine σ) (budgets : List Nat) :
    Alike SameRun (machine.runAll budgets) (machine.run budgets.sum) := by
  induction budgets generalizing machine with
  | nil =>
      refine .ok ⟨rfl, fun overflow => ?_⟩
      exact iff_of_false List.not_mem_nil nofun
  | cons n budgets ih =>
      rw [runAll, List.sum_cons, run_add]
      cases ran : machine.run n with
      | error fault => exact .error fault
      | ok result =>
          obtain ⟨first, middle⟩ := result
          cases first with
          | some overflow =>
              obtain ⟨overflows, ranAll, same⟩ := (frozen_of_run ran).runAll budgets
              rw [ok_bind, ok_bind]
              dsimp only
              rw [ranAll, ok_bind]
              refine .ok ⟨rfl, fun other => ?_⟩
              rw [List.mem_cons, Option.some.injEq, Option.some.injEq]
              constructor
              · rintro (rfl | later)
                · rfl
                · exact (same other later).symm
              · rintro rfl
                exact .inl rfl
          | none =>
              rw [ok_bind, ok_bind]
              dsimp only
              have together := ih middle
              revert together
              generalize middle.runAll budgets = chunks, middle.run budgets.sum = whole
              intro together
              cases together with
              | error fault => exact .error fault
              | ok together =>
                  refine .ok ⟨together.1, fun overflow => ?_⟩
                  rw [List.mem_cons, ← together.2 overflow]
                  exact or_iff_right (Option.some_ne_none overflow)

/-- What a frame says of the stack is what its steps say. -/
def SameFrame (framed : Except StackOverflow Bool × Machine σ)
    (ran : Option StackOverflow × Machine σ) : Prop :=
  framed.2 = ran.2 ∧ ∀ overflow, framed.1 = .error overflow ↔ ran.1 = some overflow

theorem runFrame_alike (running : machine.running = true) :
    Alike SameFrame machine.runFrame (machine.run machine.settings.stepsPerFrame.toNat) := by
  rw [runFrame_eq, frameBudget, if_pos running]
  generalize machine.run machine.settings.stepsPerFrame.toNat = ran
  cases ran with
  | error fault => exact .error fault
  | ok result =>
      obtain ⟨failed, after⟩ := result
      refine .ok ⟨rfl, fun overflow => ?_⟩
      cases failed with
      | some failed => rw [Except.error.injEq, Option.some.injEq]
      | none => exact iff_of_false nofun nofun

theorem runFrame_of_paused (paused : machine.running = false) :
    machine.runFrame = .ok (.ok false, machine) := by
  have noBudget : machine.frameBudget = 0 := by
    rw [frameBudget, paused]
    rfl
  rw [runFrame_eq, noBudget]
  show Except.ok (Except.ok (machine.board.screen.frames != machine.board.screen.frames), machine) = _
  rw [bne_self_eq_false]

/-! ## The first overflow -/

/-- The frame that the next step will sample. -/
def comingFrame (machine : Machine σ) : Checked Frame := do
  let high ← machine.halfCycle true
  let low ← high.halfCycle false
  .ok low.shownFrame

theorem comingFrame_eq {high low : Machine σ} (rising : machine.halfCycle true = .ok high)
    (falling : high.halfCycle false = .ok low) : machine.comingFrame = .ok low.shownFrame := by
  rw [comingFrame, rising, ok_bind, falling, ok_bind]

/-- The next step will find the stack pointer beyond its limit. -/
def Overflows (machine : Machine σ) (stackPointer : UInt16) : Prop :=
  ∃ frame, machine.comingFrame = .ok frame ∧ frame.pins.pl = false ∧
    frame.probes.stackPointer = stackPointer ∧ machine.board.audit.stackLimit < stackPointer

/-- Among the complaints of a frame, at most one is about the stack. -/
theorem overflowOf_ofFrame (pins : Pins) (probes : Probes) (stackLimit : UInt16) :
    overflowOf (Complaint.ofFrame pins probes stackLimit) =
      if pins.pl = false ∧ stackLimit < probes.stackPointer then some probes.stackPointer
      else none := by
  have elsewhere (condition : Prop) [Decidable condition] (complaint : Complaint)
      (other : overflowOf [complaint] = none) :
      overflowOf (if condition then [complaint] else []) = none := by
    split
    · exact other
    · rfl
  have append (first second : List Complaint) (quiet : overflowOf first = none) :
      overflowOf (first ++ second) = overflowOf second := by
    unfold overflowOf at quiet ⊢
    rw [List.findSome?_append, quiet, Option.none_or]
  unfold Complaint.ofFrame
  dsimp only
  cases pins.pl with
  | true => exact elsewhere _ _ rfl
  | false =>
      simp only [List.append_assoc, Bool.false_eq_true, if_false, true_and]
      iterate 8 rw [append _ _ (elsewhere _ _ rfl)]
      by_cases beyond : stackLimit < probes.stackPointer
      · rw [if_pos beyond, if_pos beyond]
        rfl
      · rw [if_neg beyond, if_neg beyond]
        rfl

theorem complaints_of_housekeep {core : σ} {settings : Settings} {sampled : Frame}
    {board kept : Board} {report : StepReport}
    (done : housekeep core settings sampled board = .ok (report, kept)) :
    report.complaints =
      Complaint.ofFrame sampled.pins sampled.probes board.audit.stackLimit := by
  obtain ⟨edges, latched, rendered, shown, refresh, ticked, refreshed, drawn, complaints, audit,
    latching, rendering, ticking, drawing, collecting, -, rfl⟩ := of_housekeep done
  obtain ⟨cells, -, rfl⟩ := Board.of_latchEdges latching
  obtain ⟨registers, -, rfl⟩ := Board.of_tickRegisters ticking
  obtain ⟨found, -⟩ := Audit.of_collectComplaints collecting
  have same : drawn.audit = board.audit :=
    (audit_of_capture drawing).1.trans (audit_of_capture rendering).1
  rw [← same]
  exact found

/-- A step of a machine that is not halted overflows the stack exactly if the coming
frame says so. -/
theorem overflow_of_step {result : Step σ} (awake : machine.haltedAt = none)
    (stepped : machine.step = .ok result) (overflow : StackOverflow) :
    result.overflow = some overflow ↔
      machine.Overflows overflow.stackPointer ∧
        overflow.timestamp = result.machine.board.ticks := by
  obtain ⟨high, low, report, board, rising, falling, housekept, rest⟩ := of_step awake stepped
  have coming := comingFrame_eq rising falling
  have limit : low.board.audit.stackLimit = machine.board.audit.stackLimit :=
    (Board.sameFixtures_of_moves
      ((moves_of_halfCycle rising).trans (moves_of_halfCycle falling))).stackLimit
  obtain ⟨-, timestamp, ticks, -⟩ := audit_of_housekeep housekept
  have overflows (stackPointer : UInt16) :
      machine.Overflows stackPointer ↔ overflowOf report.complaints = some stackPointer := by
    rw [complaints_of_housekeep housekept, overflowOf_ofFrame, limit]
    constructor
    · rintro ⟨frame, shown, phase, rfl, beyond⟩
      rw [coming] at shown
      cases shown
      rw [if_pos ⟨phase, beyond⟩]
    · intro said
      split at said
      · rename_i both
        cases said
        exact ⟨_, coming, both.1, rfl, both.2⟩
      · cases said
  rw [overflows]
  obtain ⟨stackPointer, overflowed, rfl⟩ | ⟨sound, final, last, -, rfl⟩ := rest
  · have time : report.timestamp = board.ticks := timestamp.trans ticks.symm
    rw [overflowed, Option.some.injEq, Option.some.injEq, time]
    constructor
    · rintro rfl
      exact ⟨rfl, rfl⟩
    · rintro ⟨rfl, same⟩
      exact congrArg _ same.symm
  · rw [sound]
    exact iff_of_false nofun fun both => nomatch both.1

/-- If the coming frame says nothing of an overflow, the step has none. -/
theorem overflow_eq_none_of_step {result : Step σ}
    (safe : ∀ stackPointer, ¬ machine.Overflows stackPointer) (awake : machine.haltedAt = none)
    (stepped : machine.step = .ok result) : result.overflow = none := by
  cases failed : result.overflow with
  | none => rfl
  | some overflow =>
      have overflows := ((overflow_of_step awake stepped overflow).mp failed).1
      exact absurd overflows (safe _)

/-- The step after the first `i` will find the stack pointer beyond its limit. -/
def OverflowsAt (machine : Machine σ) (i : Nat) (stackPointer : UInt16) : Prop :=
  ∃ before, machine.goOn i = .ok before ∧ before.Overflows stackPointer

/-- The step after the first `i` is the first one to do so. -/
def FirstOverflow (machine : Machine σ) (i : Nat) (stackPointer : UInt16) : Prop :=
  machine.OverflowsAt i stackPointer ∧ ∀ j < i, ∀ other, ¬ machine.OverflowsAt j other

/-- The step after the first `i` reports an overflow. -/
def FailsAt (machine : Machine σ) (i : Nat) (overflow : StackOverflow) : Prop :=
  ∃ result, machine.stepAfter i = .ok result ∧ result.overflow = some overflow

/-- From the step that reports an overflow on, the machine is frozen. -/
theorem FailsAt.frozen {i j : Nat} (fails : machine.FailsAt j overflow) (later : j < i)
    (gone : machine.goOn i = .ok after) : after.Frozen overflow := by
  obtain ⟨result, done, failed⟩ := fails
  obtain ⟨before, -, stepped⟩ := bind_eq_ok.mp done
  have frozen := frozen_of_step stepped failed
  obtain ⟨more, rfl⟩ := Nat.exists_eq_add_of_lt later
  rw [Nat.add_right_comm, goOn_add, goOn_succ, done] at gone
  have kept : result.machine.goOn more = .ok after := gone
  rw [frozen.goOn] at kept
  cases kept
  exact frozen

/-- After `i` steps a machine is either awake, and then nothing has overflowed, or
frozen since its first overflow. -/
theorem awake_or_frozen (awake : machine.haltedAt = none) (ticks : machine.board.ticks = 0)
    {i : Nat} (gone : machine.goOn i = .ok after) :
    (after.haltedAt = none ∧ after.board.ticks.toNat = 2 * i ∧
      ∀ j < i, ∀ stackPointer, ¬ machine.OverflowsAt j stackPointer) ∨
    ∃ j < i, ∃ overflow, machine.FailsAt j overflow ∧
      machine.OverflowsAt j overflow.stackPointer := by
  induction i generalizing after with
  | zero =>
      cases gone
      refine .inl ⟨awake, ?_, fun j none => absurd none (Nat.not_lt_zero j)⟩
      rw [ticks]
      rfl
  | succ i ih =>
      rw [goOn_succ] at gone
      obtain ⟨result, done, rfl⟩ := of_map_eq_ok gone
      obtain ⟨before, earlier, stepped⟩ := bind_eq_ok.mp done
      rcases ih earlier with ⟨stillAwake, time, none⟩ | ⟨j, below, rest⟩
      · cases failed : result.overflow with
        | some overflow =>
            have overflows := ((overflow_of_step stillAwake stepped overflow).mp failed).1
            exact .inr ⟨i, Nat.lt_succ_self i, overflow, ⟨result, done, failed⟩,
              ⟨before, earlier, overflows⟩⟩
        | none =>
            refine .inl ⟨haltedAt_of_step stepped failed, ?_, ?_⟩
            · rw [(passed_of_step stillAwake stepped).ticks, time]
              omega
            · intro j below stackPointer overflowsAt
              rcases Nat.lt_succ_iff_lt_or_eq.mp below with below | rfl
              · exact none j below stackPointer overflowsAt
              · obtain ⟨same, gone, overflows⟩ := overflowsAt
                rw [earlier] at gone
                cases gone
                have failing := (overflow_of_step stillAwake stepped
                  ⟨stackPointer, result.machine.board.ticks⟩).mpr ⟨overflows, rfl⟩
                rw [failed] at failing
                cases failing
      · exact .inr ⟨j, Nat.lt_succ_of_lt below, rest⟩

/-- From power-on, a step reports an overflow exactly if it is the first to find the
stack pointer beyond its limit, or if an earlier step has reported it. -/
theorem overflow_iff (awake : machine.haltedAt = none) (ticks : machine.board.ticks = 0)
    {i : Nat} {result : Step σ} (done : machine.stepAfter i = .ok result)
    (overflow : StackOverflow) :
    result.overflow = some overflow ↔
      machine.FirstOverflow i overflow.stackPointer ∧ overflow.timestamp.toNat = 2 * (i + 1) ∨
      ∃ j < i, machine.FailsAt j overflow := by
  obtain ⟨before, gone, stepped⟩ := bind_eq_ok.mp done
  constructor
  · intro failed
    rcases awake_or_frozen awake ticks gone with ⟨stillAwake, time, none⟩ | ⟨j, below, other, fails, -⟩
    · obtain ⟨overflows, timestamp⟩ := (overflow_of_step stillAwake stepped overflow).mp failed
      refine .inl ⟨⟨⟨before, gone, overflows⟩, none⟩, ?_⟩
      rw [timestamp, (passed_of_step stillAwake stepped).ticks, time]
      omega
    · have frozen := fails.frozen below gone
      rw [frozen.step] at stepped
      cases stepped
      cases failed
      exact .inr ⟨j, below, fails⟩
  · rintro (⟨⟨overflowsAt, first⟩, timestamp⟩ | ⟨j, below, fails⟩)
    · rcases awake_or_frozen awake ticks gone with ⟨stillAwake, time, -⟩ | ⟨j, below, other, -, earlier⟩
      · obtain ⟨same, again, overflows⟩ := overflowsAt
        rw [gone] at again
        cases again
        refine (overflow_of_step stillAwake stepped overflow).mpr ⟨overflows, ?_⟩
        rw [← UInt64.toNat_inj, timestamp, (passed_of_step stillAwake stepped).ticks, time]
        omega
      · exact absurd earlier (first j below _)
    · rw [(fails.frozen below gone).step] at stepped
      cases stepped
      rfl

/-- How machines halt.

From power-on the next 2 to the 32 steps have a result, and a step reports an
overflow exactly if it is the first to find the stack pointer beyond its limit, at
the timestamp of its end, or if an earlier step has reported the same. Whatever the
host does from then on, short of a reset, steps and runs report that overflow again
and change nothing. A run may be divided into chunks, and a frame is a run, while a
paused machine takes no step of a frame. -/
theorem halting_law (machine : Machine σ) :
    (∀ table, machine.Reachable → PoweredOn table machine →
      (∀ i, i + 1 < 2 ^ 32 → ∃ result, machine.stepAfter i = .ok result) ∧
      (∀ n < 2 ^ 32, ∃ result, machine.run n = .ok result) ∧
      ∀ i result, machine.stepAfter i = .ok result → ∀ overflow,
        (result.overflow = some overflow ↔
          machine.FirstOverflow i overflow.stackPointer ∧
              overflow.timestamp.toNat = 2 * (i + 1) ∨
            ∃ j < i, machine.FailsAt j overflow)) ∧
    (∀ result overflow, machine.step = .ok result → result.overflow = some overflow →
      ∀ actions, .reset ∉ actions → ∀ later, result.machine.performAll actions = .ok later →
        later.step = .ok ⟨none, some overflow, later⟩ ∧
        (∀ n, later.run (n + 1) = .ok (some overflow, later)) ∧
        (later.running = true → 0 < later.settings.stepsPerFrame →
          later.runFrame = .ok (.error overflow, later))) ∧
    (∀ budgets : List Nat, Alike SameRun (machine.runAll budgets) (machine.run budgets.sum)) ∧
    (machine.running = true →
      Alike SameFrame machine.runFrame (machine.run machine.settings.stepsPerFrame.toNat)) ∧
    (machine.running = false → machine.runFrame = .ok (.ok false, machine)) := by
  refine ⟨?_, ?_, machine.runAll_alike, runFrame_alike, runFrame_of_paused⟩
  · intro table reachable poweredOn
    have aged := poweredOn.aged reachable.intact
    refine ⟨?_, ?_, fun i result done =>
      overflow_iff poweredOn.fresh.awake poweredOn.audit.1 done⟩
    · intro i young
      have younger : 0 + i < 2 ^ 32 := by omega
      obtain ⟨before, gone, stillAged⟩ := goOn_aged aged (by omega) younger
      obtain ⟨result, stepped, -⟩ := step_aged stillAged (by omega) (by omega)
      exact ⟨result, bind_eq_ok.mpr ⟨before, gone, stepped⟩⟩
    · intro n short
      have young : 0 + machine.stepsTaken n < 2 ^ 32 := by
        have taken := stepsTaken_le n machine
        omega
      obtain ⟨overflow, after, ran, -⟩ := run_aged aged (by omega) young
      exact ⟨_, ran⟩
  · intro result overflow stepped failed actions kept later performed
    have frozen := (frozen_of_step stepped failed).performAll kept performed
    exact ⟨frozen.step, frozen.run, frozen.runFrame⟩

/-- A machine whose core pushes its stack pointer out of working memory in the second
step. -/
def overflowing : Machine ScriptedCore :=
  start { script := [{ probes := { stackPointer := 0x3000 } }] } { resetHalfCycles := 0 }

/-- The second step is the first to overflow, and three chunks of a run say so twice. -/
theorem halting_law_overflowing :
    overflowing.Reachable ∧ PoweredOn .blank overflowing ∧
      overflowing.FirstOverflow 1 0x3000 ∧
      ∃ overflows after, overflowing.runAll [1, 4, 2] = .ok (overflows, after) ∧
        overflowing.run 7 = .ok (some ⟨0x3000, 4⟩, after) ∧ some ⟨0x3000, 4⟩ ∈ overflows := by
  have reachable : overflowing.Reachable := ⟨0, .start _ _⟩
  have poweredOn : PoweredOn .blank overflowing := .start _ _
  obtain ⟨fromStart, -, chunks, -⟩ := halting_law overflowing
  obtain ⟨-, -, reports⟩ := fromStart .blank reachable poweredOn
  have first : (overflowing.stepAfter 0).map Step.overflow = .ok none := by decide +kernel
  have second : (overflowing.stepAfter 1).map Step.overflow = .ok (some ⟨0x3000, 4⟩) := by
    decide +kernel
  have whole : (overflowing.run 7).map Prod.fst = .ok (some ⟨0x3000, 4⟩) := by decide +kernel
  refine ⟨reachable, poweredOn, ?_, ?_⟩
  · obtain ⟨result, done, failed⟩ := of_map_eq_ok second
    rcases (reports 1 result done _).mp failed with ⟨isFirst, -⟩ | ⟨j, below, fails⟩
    · exact isFirst
    · obtain rfl : j = 0 := by omega
      obtain ⟨other, otherDone, otherFailed⟩ := fails
      rw [otherDone] at first
      exact absurd (otherFailed.symm.trans (Except.ok.inj first)) nofun
  · obtain ⟨⟨overflow, after⟩, ran, same⟩ := of_map_eq_ok whole
    cases same
    have alike := chunks [1, 4, 2]
    rw [show [1, 4, 2].sum = 7 from rfl, ran] at alike
    cases ranAll : overflowing.runAll [1, 4, 2] with
    | error fault =>
        rw [ranAll] at alike
        cases alike
    | ok result =>
        obtain ⟨overflows, last⟩ := result
        rw [ranAll] at alike
        cases alike with
        | ok together =>
            obtain ⟨rfl, said⟩ := together
            exact ⟨overflows, _, rfl, ran, (said _).mpr rfl⟩

end Handheld.Machine
