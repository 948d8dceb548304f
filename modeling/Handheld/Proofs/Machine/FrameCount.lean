/-
# Counting frames

A host that sets up the refresh controller before the first step can foretell the
number of frames shown after any number of steps, as long as the core leaves mode
and rate alone and does not overflow its stack. Each step may bring one tick of
the controller, which the divider decides, and each tick may complete a frame,
which is then shown.

Nothing else is asked of the core. It may write the tile base and every other
register, and it may expose display memory of its own.
-/

import Handheld.Core.Scripted
import Handheld.Proofs.Machine.Registers
import Handheld.Proofs.Refresh.Period
import Handheld.Proofs.Register.Writes

namespace Handheld

open Checked

/-- What register writes make of the controller, the first one first. -/
def RefreshController.afterWrites (controller : RefreshController)
    (writes : List (UInt8 × UInt8)) : RefreshController :=
  writes.foldl (fun controller (offset, data) => controller.afterWrite offset data) controller

/-- The two writes that set up a controller, in either order. -/
def SetsUp (mode rate : UInt8) (writes : List (UInt8 × UInt8)) : Prop :=
  writes = [(0x80, mode), (0x81, rate)] ∨ writes = [(0x81, rate), (0x80, mode)]

/-- A controller that has been set up to be active is at the start of a period. -/
theorem SetsUp.cycling {mode rate : UInt8} {writes : List (UInt8 × UInt8)}
    (setsUp : SetsUp mode rate writes) (active : mode.toNat.testBit 1 = true) :
    (RefreshController.initial.afterWrites writes).Cycling
      ((RefreshController.matchOf rate).toNat / 16) 0 := by
  rcases setsUp with rfl | rfl
  · have hunting := (RefreshController.Hunting.initial.setMode mode).writeRate rate
    obtain ⟨sameMode, sameCounter, -⟩ :=
      (RefreshController.initial.setMode mode).writeRate_keeps rate
    refine hunting.cycling ?_ sameCounter (by simp)
    rw [RefreshController.isActive_iff, sameMode, RefreshController.testBit_setMode]
    exact active
  · have hunting := (RefreshController.Hunting.initial.writeRate rate).setMode mode
    refine hunting.cycling ?_ (RefreshController.initial.writeRate_keeps rate).2.1 (by simp)
    rw [RefreshController.isActive_iff, RefreshController.testBit_setMode]
    exact active

/-- A write to neither mode nor rate moves the tile base at most. -/
theorem RefreshController.afterWrite_of_ne (controller : RefreshController) {offset : UInt8}
    (noMode : offset ≠ 0x80) (noRate : offset ≠ 0x81) (data : UInt8) :
    ∃ map, controller.afterWrite offset data = { controller with map } := by
  unfold afterWrite
  split
  · rename_i isMode
    exact absurd ((Register.role_eq_refreshMode_iff offset).mp isMode) noMode
  · rename_i isRate
    exact absurd ((Register.role_eq_refreshRate_iff offset).mp isRate) noRate
  · exact ⟨_, rfl⟩
  · exact ⟨controller.map, rfl⟩

theorem Board.refresh_of_writeRegister {board changed : Board} {offset data : UInt8}
    {report : RegisterWrite} (written : board.writeRegister offset data = .ok (report, changed)) :
    changed.registers.refresh = board.registers.refresh.afterWrite offset data ∧
      changed.screen = board.screen := by
  obtain ⟨registers, incidents, done, -, rfl⟩ := of_writeRegister written
  exact ⟨RegisterBank.refresh_of_write done, rfl⟩

namespace Machine

variable {σ : Type} [Core σ] {machine after : Machine σ}

theorem frames_of_capture {core : σ} {board captured : Board} {due : Bool}
    {shown : Option Presentation} (done : capture core board due = .ok (shown, captured)) :
    captured.screen.frames.toNat = board.screen.frames.toNat + if due then 1 else 0 := by
  rcases of_capture done with ⟨rfl, rfl⟩ | ⟨rfl, presentation, presented⟩
  · rfl
  · exact Board.frames_of_present presented

/-- Housekeeping shows the frame that a tick of the controller completes. -/
theorem frames_of_housekeep {core : σ} {settings : Settings} {sampled : Frame}
    {board kept : Board} {report : StepReport}
    (done : housekeep core settings sampled board = .ok (report, kept))
    (source : settings.frameSource = .refreshController) {due : Bool}
    (isDue : onRefreshInterval board.ticks settings.refreshTickCycles = due) :
    kept.screen.frames.toNat = board.screen.frames.toNat +
      if due = true ∧ board.registers.refresh.tick.1 = .frame then 1 else 0 := by
  obtain ⟨edges, latched, rendered, shown, refresh, ticked, refreshed, drawn, complaints, audit,
    latching, rendering, ticking, drawing, collecting, rfl, -⟩ := of_housekeep done
  obtain ⟨cells, -, rfl⟩ := Board.of_latchEdges latching
  obtain ⟨shownRegisters, shownTicks⟩ := registers_of_capture rendering
  obtain ⟨registers, tickDone, rfl⟩ := Board.of_tickRegisters ticking
  obtain ⟨seconds, -, rfl, outcome⟩ := RegisterBank.of_tick tickDone
  have idle : (edges.renderDone && decide (settings.frameSource = .coreRenderDone)) = false := by
    rw [source]
    exact Bool.and_false _
  have captured : (decide (refresh = some .frame) &&
      decide (settings.frameSource = .refreshController)) =
      decide (due = true ∧ board.registers.refresh.tick.1 = .frame) := by
    rw [source, outcome, shownTicks, isDue, shownRegisters]
    cases due with
    | true => simp
    | false => simp
  show drawn.screen.frames.toNat = _
  rw [frames_of_capture drawing, captured]
  show shown.screen.frames.toNat + _ = _
  rw [frames_of_capture rendering, idle]
  simp

theorem screen_of_transfer {sampled : Frame} {transfer : Transfer}
    (done : machine.transfer sampled = .ok (transfer, after)) :
    after.board.screen = machine.board.screen := by
  obtain ⟨core, board, bus, rfl, rfl | ⟨-, -, _, fetched⟩ | ⟨-, -, _, stored⟩⟩ := of_transfer done
  · rfl
  · obtain ⟨bios, cartridge, incidents, -, -, rfl⟩ := Board.of_fetch fetched
    rfl
  · obtain ⟨ram, registers, incidents, -, -, rfl⟩ := Board.of_store stored
    rfl

/-- A step in which the core spares mode and rate ticks the controller if the divider
says so. -/
theorem refresh_of_step {result : Step σ} (stepped : machine.step = .ok result)
    (sound : result.overflow = none) (noMode : ¬ machine.Writes 0x2080)
    (noRate : ¬ machine.Writes 0x2081) {due : Bool}
    (isDue : onRefreshInterval result.machine.board.ticks machine.settings.refreshTickCycles =
      due) :
    let refresh := machine.board.registers.refresh
    ∃ map, result.machine.board.registers.refresh =
      { if due then refresh.tick.2 else refresh with map } := by
  obtain ⟨cells, tick, ticked, ticking, rest⟩ := registers_of_step stepped sound
  obtain ⟨counter, -, rfl, -⟩ := RegisterBank.of_tick ticking
  rw [isDue] at rest
  obtain same | ⟨offset, data, write, writes, written⟩ := rest
  · rw [same]
    exact ⟨_, rfl⟩
  · rw [RegisterBank.refresh_of_write written]
    apply RefreshController.afterWrite_of_ne
    · rintro rfl
      exact noMode writes
    · rintro rfl
      exact noRate writes

/-- A step shows the frame that the controller completes in it. -/
theorem frames_of_step {result : Step σ} (stepped : machine.step = .ok result)
    (sound : result.overflow = none)
    (source : machine.settings.frameSource = .refreshController) {due : Bool}
    (isDue : onRefreshInterval result.machine.board.ticks machine.settings.refreshTickCycles =
      due) :
    result.machine.board.screen.frames.toNat = machine.board.screen.frames.toNat +
      if due = true ∧ machine.board.registers.refresh.tick.1 = .frame then 1 else 0 := by
  obtain ⟨awake, -⟩ := awake_of_step stepped sound
  obtain ⟨high, low, report, kept, rising, falling, housekept, rest⟩ := of_step awake stepped
  obtain ⟨-, -, ticks, -⟩ := audit_of_housekeep housekept
  obtain ⟨core, oscillator, clock, -, rfl⟩ := of_cycle rising falling
  obtain ⟨stackPointer, -, rfl⟩ | ⟨-, final, last, finished, rfl⟩ := rest
  · cases sound
  obtain ⟨boundary, observed, transfer, middle, -, moved, -, rfl⟩ := of_finishStep finished
  obtain ⟨-, movedTicks, -, -⟩ := audit_of_transfer moved
  have time : middle.board.ticks = clock := movedTicks.trans ticks
  have dueThen : onRefreshInterval clock machine.settings.refreshTickCycles = due := by
    rw [← time]
    exact isDue
  show middle.board.screen.frames.toNat = _
  rw [screen_of_transfer moved]
  exact frames_of_housekeep housekept source dueThen

/-- The next step neither overflows the stack nor writes to mode or rate. -/
structure Calm (machine : Machine σ) : Prop where
  sound : ∀ stackPointer, ¬ machine.Overflows stackPointer
  noMode : ¬ machine.Writes 0x2080
  noRate : ¬ machine.Writes 0x2081

/-- Where the frame count stands after `n` steps from power-on, with a controller that
takes `k` hunts for a frame. -/
structure Refreshing (machine : Machine σ) (k n : Nat) : Prop where
  awake : machine.haltedAt = none
  source : machine.settings.frameSource = .refreshController
  ticks : machine.board.ticks.toNat = 2 * n
  counts : ∃ phase, machine.board.registers.refresh.Cycling k phase ∧
    RefreshController.Counts (refreshTicks machine.settings.refreshTickCycles.toNat n) k
      machine.board.screen.frames.toNat phase

variable {k n : Nat}

/-- A calm step does not halt the machine. -/
theorem Calm.overflow_eq_none {result : Step σ} (calm : machine.Calm)
    (awake : machine.haltedAt = none) (stepped : machine.step = .ok result) :
    result.overflow = none :=
  overflow_eq_none_of_step calm.sound awake stepped

/-- One more calm step is one more step of the count. -/
theorem Refreshing.step {result : Step σ} (refreshing : machine.Refreshing k n)
    (calm : machine.Calm) (stepped : machine.step = .ok result) :
    result.machine.Refreshing k (n + 1) := by
  have awake := refreshing.awake
  have sound := calm.overflow_eq_none awake stepped
  have passed := passed_of_step awake stepped
  have time : result.machine.board.ticks.toNat = 2 * (n + 1) := by
    rw [passed.ticks, refreshing.ticks]
    omega
  -- The divider is one cycle ahead of the step that has just ended.
  have due_iff := onRefreshInterval_iff result.machine.board.ticks
    machine.settings.refreshTickCycles
  rw [time, Nat.mul_div_cancel_left _ Nat.two_pos] at due_iff
  obtain ⟨phase, cycling, counts⟩ := refreshing.counts
  refine ⟨haltedAt_of_step stepped sound, passed.settings ▸ refreshing.source, time, ?_⟩
  rw [passed.settings, refreshTicks_succ, ← if_congr due_iff rfl rfl]
  cases due : onRefreshInterval result.machine.board.ticks machine.settings.refreshTickCycles with
  | false =>
      obtain ⟨map, refresh⟩ := refresh_of_step stepped sound calm.noMode calm.noRate due
      have frames := frames_of_step stepped sound refreshing.source due
      refine ⟨phase, refresh ▸ cycling.withMap map, ?_⟩
      rw [frames]
      simpa using counts
  | true =>
      obtain ⟨map, refresh⟩ := refresh_of_step stepped sound calm.noMode calm.noRate due
      have frames := frames_of_step stepped sound refreshing.source due
      obtain ⟨frame_iff, next⟩ := cycling.tick
      refine ⟨_, refresh ▸ next.withMap map, ?_⟩
      rw [frames]
      simpa [frame_iff] using counts.tick

/-- A young machine takes its calm steps, and keeps its frame count. -/
theorem Refreshing.run {m bound age : Nat} (refreshing : machine.Refreshing k m)
    (aged : machine.board.Aged bound age) (room : bound + 99 * n < 2 ^ 62)
    (young : age + n < 2 ^ 32)
    (calm : ∀ i < n, ∀ before, machine.goOn i = .ok before → before.Calm) :
    ∃ after, machine.run n = .ok (none, after) ∧ after.settings = machine.settings ∧
      after.Refreshing k (m + n) := by
  let Holds (i : Nat) (now : Machine σ) : Prop :=
    now.settings = machine.settings ∧ now.Refreshing k i
  have advance {i : Nat} {before : Machine σ} {result : Step σ} (held : Holds i before)
      (calm : before.Calm) (stepped : before.step = .ok result) :
      result.overflow = none ∧ Holds (i + 1) result.machine := by
    obtain ⟨settings, counting⟩ := held
    have passed := passed_of_step counting.awake stepped
    exact ⟨calm.overflow_eq_none counting.awake stepped, passed.settings.trans settings,
      counting.step calm stepped⟩
  exact exists_run Holds advance ⟨rfl, refreshing⟩ aged room young calm

/-- Register writes, as actions of the host. -/
def pokes (writes : List (UInt8 × UInt8)) : List (Action σ) :=
  writes.map fun (offset, data) => .pokeRegister offset data

/-- A young machine takes register writes without ageing, and its controller takes
what it understands of them. -/
theorem performAll_pokes {bound age : Nat} (writes : List (UInt8 × UInt8))
    (aged : machine.board.Aged bound age) (room : bound + 9 * writes.length < 2 ^ 63) :
    ∃ board, machine.performAll (pokes writes) = .ok { machine with board } ∧
      board.Aged (bound + 9 * writes.length) age ∧ board.ticks = machine.board.ticks ∧
      board.screen = machine.board.screen ∧
      board.registers.refresh = machine.board.registers.refresh.afterWrites writes := by
  induction writes generalizing machine bound with
  | nil => exact ⟨machine.board, rfl, aged, rfl, rfl, rfl⟩
  | cons write rest ih =>
      rw [List.length_cons] at room
      obtain ⟨report, first, written, performed, books, ticks⟩ :=
        pokeRegister_ready (aged.bounded.ready (by omega)) write.1 write.2
      obtain ⟨refresh, screen⟩ := Board.refresh_of_writeRegister written
      have next : ({ machine with board := first } : Machine σ).board.Aged (bound + 9) age :=
        aged.move (.writeRegister _ _ written) books ticks
      obtain ⟨last, restPerformed, lastAged, lastTicks, lastScreen, lastRefresh⟩ :=
        ih next (by omega)
      refine ⟨last, bind_eq_ok.mpr ⟨_, performed, restPerformed⟩, ?_, lastTicks.trans ticks,
        lastScreen.trans screen, ?_⟩
      · rw [List.length_cons]
        exact lastAged.mono (by omega) le_rfl
      · rw [lastRefresh]
        show first.registers.refresh.afterWrites rest = _
        rw [refresh]
        rfl

/-- How many frames there are.

If the host sets up the refresh controller at power-on, any number of calm steps
below 2 to the 32 shows one frame for every `65 * k + 1` ticks of the divider, where
`k` is the match value of the rate in steps of the hunt. -/
theorem frames_of_refresh {table : CycleTable} {mode rate : UInt8}
    {writes : List (UInt8 × UInt8)} (reachable : machine.Reachable)
    (poweredOn : PoweredOn table machine)
    (source : machine.settings.frameSource = .refreshController)
    (setsUp : SetsUp mode rate writes) (active : mode.toNat.testBit 1 = true) :
    ∃ prepared, machine.performAll (pokes writes) = .ok prepared ∧
      ∀ n < 2 ^ 32, (∀ i < n, ∀ before, prepared.goOn i = .ok before → before.Calm) →
        ∃ after, prepared.run n = .ok (none, after) ∧
          after.board.screen.frames.toNat =
            refreshTicks machine.settings.refreshTickCycles.toNat n /
              (65 * ((RefreshController.matchOf rate).toNat / 16) + 1) := by
  have fresh := poweredOn.fresh
  have few : writes.length = 2 := by rcases setsUp with rfl | rfl <;> rfl
  obtain ⟨board, performed, aged, ticks, screen, refresh⟩ :=
    performAll_pokes writes (poweredOn.aged reachable.intact) (by omega)
  obtain ⟨keyPad, registers⟩ := fresh.registers
  have start : ({ machine with board } : Machine σ).Refreshing
      ((RefreshController.matchOf rate).toNat / 16) 0 := by
    refine ⟨fresh.awake, source, ?_, 0, ?_, ?_⟩
    · show board.ticks.toNat = 0
      rw [ticks, poweredOn.audit.1]
      rfl
    · show board.registers.refresh.Cycling _ 0
      rw [refresh, registers]
      exact setsUp.cycling active
    · show RefreshController.Counts _ _ board.screen.frames.toNat 0
      rw [refreshTicks_zero, screen, fresh.frames]
      exact ⟨rfl, Nat.zero_le _⟩
  refine ⟨_, performed, fun n short calm => ?_⟩
  obtain ⟨after, ran, settings, refreshing⟩ := start.run aged (by omega) (by omega) calm
  obtain ⟨phase, -, counts⟩ := refreshing.counts
  rw [settings, Nat.zero_add] at counts
  exact ⟨after, ran, counts.frames_eq.symm⟩

/-- An idle core, and a divider that ticks the controller in every step. -/
def metronome : Machine ScriptedCore :=
  start {} { refreshTickCycles := 1 }

/-- At a rate of one hunt for a frame, step 66 shows the first one. -/
theorem frames_of_refresh_metronome :
    metronome.Reachable ∧ PoweredOn .blank metronome ∧
      ∃ prepared, metronome.performAll (pokes [(0x81, 0x08), (0x80, 0x02)]) = .ok prepared ∧
        (∀ i < 66, ∀ before, prepared.goOn i = .ok before → before.Calm) ∧
        (∃ after, prepared.run 65 = .ok (none, after) ∧
          after.board.screen.frames.toNat = 0) ∧
        ∃ after, prepared.run 66 = .ok (none, after) ∧
          after.board.screen.frames.toNat = 1 := by
  have reachable : metronome.Reachable := ⟨0, .start _ _⟩
  have poweredOn : PoweredOn .blank metronome := .start _ _
  have setsUp : SetsUp 0x02 0x08 [(0x81, 0x08), (0x80, 0x02)] := .inr rfl
  obtain ⟨prepared, performed, frames⟩ := frames_of_refresh reachable poweredOn rfl setsUp rfl
  have idle : ∀ i < 66, (metronome.performAll (pokes [(0x81, 0x08), (0x80, 0x02)]) >>=
      goOn i >>= comingFrame) = .ok {} := by decide +kernel
  have calm : ∀ i < 66, ∀ before, prepared.goOn i = .ok before → before.Calm := by
    intro i below before gone
    have coming := idle i below
    rw [performed, ok_bind, gone, ok_bind] at coming
    refine ⟨?_, ?_, ?_⟩
    · rintro stackPointer ⟨frame, shown, -, rfl, beyond⟩
      cases coming.symm.trans shown
      exact absurd beyond UInt16.not_lt_zero
    · rintro ⟨frame, shown, writing, -⟩
      cases coming.symm.trans shown
      cases writing
    · rintro ⟨frame, shown, writing, -⟩
      cases coming.symm.trans shown
      cases writing
  refine ⟨reachable, poweredOn, prepared, performed, calm, ?_, ?_⟩
  · exact frames 65 (by decide) fun i below => calm i (Nat.lt_succ_of_lt below)
  · exact frames 66 (by decide) calm

end Machine

end Handheld
