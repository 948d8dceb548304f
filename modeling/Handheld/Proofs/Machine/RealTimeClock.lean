/-
# The real-time clock on the core's line

The board asks its oscillator once in every half cycle, at a timestamp that has just
counted it, so the oscillator is asked at every timestamp in turn and is never late.
The core's line follows it. A scripted core counts the edges of the line, and after
`n` steps from power-on it has seen those at the timestamps below `2 * n`.

What the frames of the script ask for has no part in this, nor has the host, as long
as it does not touch the line itself.
-/

import Handheld.Proofs.Machine.ScriptedPairs
import Handheld.Proofs.Machine.SecondsCount
import Handheld.Proofs.Oscillator

namespace Handheld

open Checked

namespace ScriptedCore

/-- What a scripted core knows of the real-time clock: its level, and how many edges
there have been. -/
def clockLine (core : ScriptedCore) : Bool × UInt64 :=
  (core.realTimeClock, core.realTimeEdges)

@[simp]
theorem clockLine_setClock (core : ScriptedCore) (level : Bool) :
    (core.setClock level).clockLine = core.clockLine := by
  obtain ⟨script, current, same⟩ := core.setClock_eq level
  rw [same]
  rfl

/-- Driving the line to its other level is an edge. -/
theorem clockLine_setRealTimeClock {core : ScriptedCore} {level : Bool}
    (toggles : core.realTimeClock = !level) :
    (core.setRealTimeClock level).clockLine = (level, core.realTimeEdges + 1) := by
  cases level <;> simp [setRealTimeClock, clockLine, toggles]

end ScriptedCore

namespace Machine

open Oscillator (edgesBefore edgesBefore_succ_eq edgesBefore_zero)

variable {machine after : Machine ScriptedCore} {past : UInt64} {period time : Nat}

/-- The part of a machine that the real-time clock is made of. -/
def timing (machine : Machine ScriptedCore) : (Bool × UInt64) × Oscillator × UInt64 :=
  (machine.core.clockLine, machine.board.oscillator, machine.board.ticks)

/-- The oscillator is on schedule at `time`, and the core has seen each of its edges on
top of some past ones. -/
structure OnTime (machine : Machine ScriptedCore) (past : UInt64) (period time : Nat) : Prop where
  ticks : machine.board.ticks.toNat = time
  scheduled : machine.board.oscillator.Scheduled period time
  line : machine.core.clockLine =
    (machine.board.oscillator.level, past + UInt64.ofNat (edgesBefore period time))

theorem OnTime.of_timing (onTime : machine.OnTime past period time)
    (same : after.timing = machine.timing) : after.OnTime past period time := by
  have line : after.core.clockLine = machine.core.clockLine := congrArg (·.1) same
  have oscillator : after.board.oscillator = machine.board.oscillator := congrArg (·.2.1) same
  have ticks : after.board.ticks = machine.board.ticks := congrArg (·.2.2) same
  constructor
  · rw [ticks, onTime.ticks]
  · rw [oscillator]
    exact onTime.scheduled
  · rw [line, oscillator, onTime.line]

/-- Half a cycle asks the oscillator at the timestamp that follows the last one. -/
theorem OnTime.halfCycle (onTime : machine.OnTime past period time) {level : Bool}
    (passed : machine.halfCycle level = .ok after) : after.OnTime past period (time + 1) := by
  obtain ⟨⟨toggled, board⟩, done, same⟩ := bind_eq_ok.mp passed
  obtain ⟨oscillator, asked, counted, rfl⟩ := Board.of_halfCycle done
  have due : machine.board.oscillator.Scheduled period machine.board.ticks.toNat := by
    rw [onTime.ticks]
    exact onTime.scheduled
  obtain ⟨answer, next⟩ := due.of_due asked
  rw [onTime.ticks] at answer next counted
  have edges := edgesBefore_succ_eq period time
  rw [← answer] at edges
  cases same
  refine ⟨counted, next, ?_⟩
  obtain ⟨rfl, rfl⟩ | ⟨rfl, turned⟩ := Oscillator.due_cases asked
  · show (machine.core.setClock level).clockLine = _
    rw [ScriptedCore.clockLine_setClock, onTime.line, edges]
    rfl
  · have line := (machine.core.clockLine_setClock level).trans onTime.line
    have low : (machine.core.setClock level).realTimeClock = !!machine.board.oscillator.level := by
      rw [Bool.not_not]
      exact congrArg Prod.fst line
    have past : (machine.core.setClock level).realTimeEdges =
        past + UInt64.ofNat (edgesBefore period time) := congrArg Prod.snd line
    show ((machine.core.setClock level).setRealTimeClock _).clockLine = _
    rw [ScriptedCore.clockLine_setRealTimeClock low, past, turned, edges, UInt64.add_assoc]
    simp

theorem oscillator_of_capture {core : ScriptedCore} {board captured : Board} {due : Bool}
    {shown : Option Presentation} (done : capture core board due = .ok (shown, captured)) :
    captured.oscillator = board.oscillator := by
  rcases of_capture done with ⟨-, rfl⟩ | ⟨-, presentation, presented⟩
  · rfl
  · obtain ⟨ram, screen, -, -, -, rfl⟩ := Board.of_present presented
    rfl

theorem oscillator_of_housekeep {core : ScriptedCore} {settings : Settings} {sampled : Frame}
    {board kept : Board} {report : StepReport}
    (done : housekeep core settings sampled board = .ok (report, kept)) :
    kept.oscillator = board.oscillator := by
  obtain ⟨edges, latched, rendered, shown, refresh, ticked, refreshed, drawn, complaints, audit,
    latching, rendering, ticking, drawing, -, rfl, -⟩ := of_housekeep done
  obtain ⟨cells, -, rfl⟩ := Board.of_latchEdges latching
  obtain ⟨registers, -, rfl⟩ := Board.of_tickRegisters ticking
  have shownSame := oscillator_of_capture rendering
  have drawnSame := oscillator_of_capture drawing
  show drawn.oscillator = board.oscillator
  rw [drawnSame]
  exact shownSame

/-- A transaction may serve the core a byte, which its clock line does not carry. -/
theorem timing_of_transfer {sampled : Frame} {transfer : Transfer}
    (done : machine.transfer sampled = .ok (transfer, after)) : after.timing = machine.timing := by
  obtain ⟨pins, probes⟩ := sampled
  unfold Machine.transfer at done
  simp only at done
  split at done
  · split at done
    · cases done
      rfl
    · obtain ⟨⟨fetch, board⟩, fetched, same⟩ := bind_eq_ok.mp done
      obtain ⟨bios, cartridge, incidents, -, -, rfl⟩ := Board.of_fetch fetched
      cases same
      rfl
  · split at done
    · obtain ⟨⟨store, board⟩, stored, same⟩ := bind_eq_ok.mp done
      obtain ⟨ram, registers, incidents, -, -, rfl⟩ := Board.of_store stored
      cases same
      rfl
    · cases done
      rfl
  · cases done
    rfl
  · cases done
    rfl

theorem timing_of_finishStep {report final : StepReport}
    (finished : machine.finishStep report = .ok (final, after)) :
    after.timing = machine.timing := by
  obtain ⟨boundary, audit, transfer, middle, -, moved, -, rfl⟩ := of_finishStep finished
  have released : (machine.audited report audit).timing = machine.timing := by
    unfold timing audited
    dsimp only
    split
    · rfl
    · rfl
  exact (timing_of_transfer moved).trans released

/-- To the real-time clock a step is two half cycles. -/
theorem OnTime.step {result : Step ScriptedCore} (onTime : machine.OnTime past period time)
    (stepped : machine.step = .ok result) (sound : result.overflow = none) :
    result.machine.OnTime past period (time + 2) := by
  obtain ⟨awake, -⟩ := awake_of_step stepped sound
  obtain ⟨high, low, report, kept, rising, falling, housekept, rest⟩ := of_step awake stepped
  have passed : low.OnTime past period (time + 2) := (onTime.halfCycle rising).halfCycle falling
  obtain ⟨stackPointer, -, rfl⟩ | ⟨-, final, last, finished, rfl⟩ := rest
  · cases sound
  · have tended : ({ low with board := kept } : Machine ScriptedCore).timing = low.timing := by
      have oscillator := oscillator_of_housekeep housekept
      obtain ⟨-, -, ticks, -⟩ := audit_of_housekeep housekept
      simp only [timing, oscillator, ticks]
    exact passed.of_timing ((timing_of_finishStep finished).trans tended)

/-- The host leaves the line to the machine: if it exchanges the core, the new one knows
of the real-time clock what the old one did. -/
def LeavesLine (machine : Machine ScriptedCore) (action : Action ScriptedCore) : Prop :=
  ∀ core, action = .exchangeCore core → core.clockLine = machine.core.clockLine

theorem clockLine_forwardKeys (machine : Machine ScriptedCore) :
    machine.forwardKeys.core.clockLine = machine.core.clockLine := by
  unfold forwardKeys
  split <;> rfl

/-- Between steps the real-time clock stands still. -/
theorem timing_of_pause {action : Action ScriptedCore} (pauses : action.Pauses)
    (leaves : machine.LeavesLine action) (performed : machine.perform action = .ok after) :
    after.timing = machine.timing := by
  cases action with
  | loadBios image =>
      cases performed
      cases loaded : machine.loadBios image with
      | error refusal => rfl
      | ok loadedMachine =>
          obtain ⟨bios, -, same⟩ := bind_eq_ok.mp loaded
          cases same
          rfl
  | loadCartridge image =>
      cases performed
      cases loaded : machine.loadCartridge image with
      | error refusal => rfl
      | ok loadedMachine =>
          obtain ⟨cartridge, -, same⟩ := bind_eq_ok.mp loaded
          cases same
          rfl
  | setTable | setRunning | takeRedraw =>
      cases performed
      rfl
  | setKeys keys =>
      cases performed
      rw [timing, board_setKeys, Machine.setKeys, clockLine_forwardKeys]
      rfl
  | exchangeCore core =>
      cases performed
      rw [timing, leaves core rfl]
      rfl
  | pokeRegister offset data =>
      obtain ⟨⟨write, _⟩, poked, rfl⟩ := of_map_eq_ok performed
      obtain ⟨⟨_, board⟩, written, same⟩ := bind_eq_ok.mp poked
      obtain ⟨registers, incidents, -, -, rfl⟩ := Board.of_writeRegister written
      cases same
      rfl
  | raise offset mask =>
      obtain ⟨⟨raised, _⟩, done, rfl⟩ := of_map_eq_ok performed
      obtain ⟨⟨_, registers⟩, -, same⟩ := bind_eq_ok.mp done
      cases same
      rfl
  | peekRegister | view | coverage =>
      obtain ⟨_, -, rfl⟩ := of_map_eq_ok performed
      rfl
  | step | run | runFrame | reset => exact pauses.elim

/-- Since it was `origin`, the machine has taken `n` steps without a stack overflow. Between
them the host may have done anything that neither takes steps nor touches the line. -/
inductive Driven (origin : Machine ScriptedCore) : Nat → Machine ScriptedCore → Prop
  | start : Driven origin 0 origin
  | step {n : Nat} {now : Machine ScriptedCore} {result : Step ScriptedCore} :
      Driven origin n now → now.step = .ok result → result.overflow = none →
        Driven origin (n + 1) result.machine
  | act {n : Nat} {now next : Machine ScriptedCore} {action : Action ScriptedCore} :
      Driven origin n now → action.Pauses → now.LeavesLine action →
        now.perform action = .ok next → Driven origin n next

theorem Driven.onTime {origin now : Machine ScriptedCore} {n : Nat} (driven : Driven origin n now)
    (onTime : origin.OnTime past period 0) : now.OnTime past period (2 * n) := by
  induction driven with
  | start => exact onTime
  | step _ stepped sound ih => exact ih.step stepped sound
  | act _ pauses leaves performed ih =>
      exact ih.of_timing (timing_of_pause pauses leaves performed)

/-- Reset drives the line low. This is an edge only if the core has seen it high before. -/
theorem clockLine_holdReset (machine : Machine ScriptedCore) :
    machine.holdReset.core.clockLine = (machine.core.setRealTimeClock false).clockLine := by
  unfold holdReset
  exact clockLine_forwardKeys _

/-- At power-on the oscillator starts over, and the line is low. -/
theorem PoweredOn.clock {table : CycleTable} (poweredOn : PoweredOn table machine) :
    machine.core.realTimeClock = false ∧ machine.board.oscillator =
      .start machine.settings.coreClockHz machine.settings.realTimeClockHz := by
  induction poweredOn with
  | start core settings =>
      refine ⟨congrArg Prod.fst (clockLine_holdReset _), ?_⟩
      rw [(settings_start core settings).1, Machine.start, board_holdReset]
      rfl
  | reset machine =>
      refine ⟨congrArg Prod.fst (clockLine_holdReset _), ?_⟩
      rw [Machine.reset, board_holdReset, (flags_holdReset _).1]
      rfl
  | setTable table _ ih => exact ih
  | loadBios _ loaded ih =>
      obtain ⟨bios, -, same⟩ := bind_eq_ok.mp loaded
      cases same
      exact ih
  | loadCartridge _ loaded ih =>
      obtain ⟨cartridge, -, same⟩ := bind_eq_ok.mp loaded
      cases same
      exact ih
  | @setKeys _ machine keys _ ih =>
      have line : (machine.setKeys keys).core.clockLine = machine.core.clockLine :=
        clockLine_forwardKeys _
      have settings : (machine.setKeys keys).settings = machine.settings :=
        (flags_forwardKeys _).1
      rw [board_setKeys, settings]
      exact ⟨(congrArg Prod.fst line).trans ih.1, ih.2⟩

/-- The period of the oscillator of a machine with these settings. -/
def clockPeriod (settings : Settings) : Nat :=
  (Oscillator.periodOf settings.coreClockHz settings.realTimeClockHz).toNat

theorem PoweredOn.onTime {table : CycleTable} (poweredOn : PoweredOn table machine) :
    machine.OnTime machine.core.realTimeEdges (clockPeriod machine.settings) 0 := by
  obtain ⟨low, oscillator⟩ := poweredOn.clock
  constructor
  · rw [poweredOn.audit.1]
    rfl
  · rw [oscillator]
    exact Oscillator.scheduled_start _ _
  · rw [ScriptedCore.clockLine, low, oscillator, edgesBefore_zero]
    simp [Oscillator.start]

/-- The edges seen since power-on are those of the schedule. -/
theorem PoweredOn.edges {table : CycleTable} {origin now : Machine ScriptedCore} {n : Nat}
    (poweredOn : PoweredOn table origin) (driven : Driven origin n now) :
    (now.core.realTimeEdges - origin.core.realTimeEdges).toNat =
      (2 * n - 1) / clockPeriod origin.settings := by
  have onTime := driven.onTime poweredOn.onTime
  have few : edgesBefore (clockPeriod origin.settings) (2 * n) < UInt64.size := by
    have timestamp := now.board.ticks.toNat_lt
    rw [onTime.ticks] at timestamp
    have counted : edgesBefore (clockPeriod origin.settings) (2 * n) ≤ 2 * n - 1 :=
      Nat.div_le_self _ _
    simp only [UInt64.size]
    omega
  have seen : now.core.realTimeEdges = origin.core.realTimeEdges +
      UInt64.ofNat (edgesBefore (clockPeriod origin.settings) (2 * n)) :=
    congrArg Prod.snd onTime.line
  have since : now.core.realTimeEdges - origin.core.realTimeEdges =
      UInt64.ofNat (edgesBefore (clockPeriod origin.settings) (2 * n)) := by
    rw [seen, UInt64.add_comm, UInt64.add_sub_cancel]
  rw [since, UInt64.toNat_ofNat_of_lt' few]
  rfl

/-- A core that has seen the line low sees no edge at power-on. -/
theorem realTimeEdges_start {core : ScriptedCore} (settings : Settings)
    (low : core.realTimeClock = false) :
    (start core settings).core.realTimeEdges = core.realTimeEdges := by
  have line : (start core settings).core.clockLine = (core.setRealTimeClock false).clockLine :=
    clockLine_holdReset _
  have unchanged : (core.setRealTimeClock false).realTimeEdges = core.realTimeEdges := by
    simp [ScriptedCore.setRealTimeClock, low]
  exact (congrArg Prod.snd line).trans unchanged

/-- From power-on, steps that do not overflow the stack succeed. -/
theorem exists_driven (core : ScriptedCore) (settings : Settings) {n : Nat} (short : n < 2 ^ 32)
    (sound : ∀ i < n, ∀ before, (start core settings).goOn i = .ok before →
      ∀ stackPointer, ¬ before.Overflows stackPointer) :
    ∃ now, (start core settings).run n = .ok (none, now) ∧
      Driven (start core settings) n now := by
  let Holds (i : Nat) (now : Machine ScriptedCore) : Prop :=
    now.haltedAt = none ∧ Driven (start core settings) i now
  have advance {i : Nat} {before : Machine ScriptedCore} {result : Step ScriptedCore}
      (held : Holds i before) (sound : ∀ stackPointer, ¬ before.Overflows stackPointer)
      (stepped : before.step = .ok result) :
      result.overflow = none ∧ Holds (i + 1) result.machine := by
    have none : result.overflow = none := overflow_eq_none_of_step sound held.1 stepped
    exact ⟨none, haltedAt_of_step stepped none, held.2.step stepped none⟩
  have awake : (start core settings).haltedAt = none := (settings_start core settings).2
  obtain ⟨now, ran, -, driven⟩ :=
    exists_run Holds advance ⟨awake, .start⟩ (aged_start core settings) (by omega) (by omega) sound
  rw [Nat.zero_add] at driven
  exact ⟨now, ran, driven⟩

/-- Edges do not drift.

The period is the ratio of the two clocks, rounded. Asked at every timestamp in turn, the
oscillator toggles at the positive multiples of its period and nowhere else, to the high
level at the odd ones, until there is no timestamp for the next edge. So a scripted core has
seen `(2 * n - 1) / period` edges after `n` steps from power-on; and `n` steps that do not
overflow the stack succeed. -/
theorem edges_do_not_drift :
    (∀ coreHz realTimeHz : UInt32, ((Oscillator.periodOf coreHz realTimeHz).toNat : ℤ) =
      max 1 (round ((coreHz.toNat : ℚ) / (max 1 realTimeHz.toNat : Nat)))) ∧
    (∀ coreHz realTimeHz : UInt32,
      let period := (Oscillator.periodOf coreHz realTimeHz).toNat
      (∀ n ≤ (2 ^ 64 - 1) / period * period,
        ∃ changed, (Oscillator.start coreHz realTimeHz).sweep n =
          .ok ((List.range n).map fun timestamp =>
            if 0 < timestamp ∧ period ∣ timestamp then some (decide (Odd (timestamp / period)))
            else none, changed)) ∧
      (Oscillator.start coreHz realTimeHz).sweep ((2 ^ 64 - 1) / period * period + 1) =
        .error .overflow) ∧
    (∀ (table : CycleTable) (origin : Machine ScriptedCore), PoweredOn table origin →
      ∀ n now, 1 ≤ n → Driven origin n now →
        (now.core.realTimeEdges - origin.core.realTimeEdges).toNat =
          (2 * n - 1) / clockPeriod origin.settings) ∧
    (∀ (core : ScriptedCore) (settings : Settings), core.realTimeClock = false →
      core.realTimeEdges = 0 → ∀ n now, 1 ≤ n → Driven (start core settings) n now →
        now.core.realTimeEdges.toNat = (2 * n - 1) / clockPeriod settings) ∧
    (∀ (core : ScriptedCore) (settings : Settings), ∀ n < 2 ^ 32,
      (∀ i < n, ∀ before, (start core settings).goOn i = .ok before →
        ∀ stackPointer, ¬ before.Overflows stackPointer) →
      ∃ now, (start core settings).run n = .ok (none, now) ∧
        Driven (start core settings) n now) := by
  refine ⟨Oscillator.toNat_periodOf, ?_, ?_, ?_, ?_⟩
  · intro coreHz realTimeHz period
    have scheduled := Oscillator.scheduled_start coreHz realTimeHz
    constructor
    · intro n early
      obtain ⟨changed, swept, -⟩ := scheduled.sweep early
      exact ⟨changed, swept⟩
    · exact scheduled.sweep_eq_error (UInt64.toNat_lt _)
  · intro table origin poweredOn n now _ driven
    exact poweredOn.edges driven
  · intro core settings low unseen n now _ driven
    have edges := (PoweredOn.start core settings).edges driven
    rw [realTimeEdges_start settings low, unseen, (settings_start core settings).1] at edges
    simpa using edges
  · intro core settings n short sound
    exact exists_driven core settings short sound

/-- An idle core whose real-time clock runs at two fifths of its own. -/
def pulsing : Machine ScriptedCore :=
  start {} { coreClockHz := 5, realTimeClockHz := 2 }

/-- Two and a half is rounded to three, and ten half cycles pass three multiples of it. -/
theorem edges_do_not_drift_pulsing :
    ∃ now, pulsing.run 5 = .ok (none, now) ∧ now.core.realTimeEdges.toNat = 3 := by
  obtain ⟨-, -, -, edges, runs⟩ := edges_do_not_drift
  have idle : ∀ i < 5, (pulsing.goOn i >>= comingFrame) = .ok {} := by decide +kernel
  obtain ⟨now, ran, driven⟩ := runs {} { coreClockHz := 5, realTimeClockHz := 2 } 5 (by decide)
    fun i below before gone => by
      have coming := idle i below
      rw [pulsing, gone, ok_bind] at coming
      exact (sparesSeconds_of_idle coming).sound
  exact ⟨now, ran, edges {} _ rfl rfl 5 now (by decide) driven⟩

end Machine

end Handheld
