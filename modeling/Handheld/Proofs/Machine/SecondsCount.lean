/-
# Counting seconds

A host that enables the seconds counter before the first step can foretell its count after
any number of steps, as long as neither the host nor the core writes to its control
register again. All else is free: the host may load images, press keys and write other
registers between the steps, and the core may do what it likes.

The divider of the counter looks at the timestamp once in each step, and finds it even. So
an odd interval is met at every other multiple only.
-/

import Handheld.Proofs.Machine.Answers
import Handheld.Proofs.Machine.FrameCount
import Handheld.Proofs.Register.Seconds

namespace Handheld

open Checked

theorem onSecondsInterval_iff (timestamp interval : UInt64) :
    onSecondsInterval timestamp interval = true ↔
      interval.toNat ≠ 0 ∧ interval.toNat ∣ timestamp.toNat := by
  simp only [onSecondsInterval, Bool.and_eq_true, bne_iff_ne, beq_iff_eq, ne_eq,
    ← UInt64.toNat_inj, UInt64.toNat_mod, UInt64.toNat_zero, Nat.dvd_iff_mod_eq_zero]

/-- How often the seconds divider fires in `n` steps from power-on, when it looks at every
other half cycle. -/
def secondsTicks (interval n : Nat) : Nat :=
  if interval = 0 then 0 else 2 * n / Nat.lcm 2 interval

theorem secondsTicks_zero (interval : Nat) : secondsTicks interval 0 = 0 := by
  simp [secondsTicks]

theorem secondsTicks_succ (interval n : Nat) :
    secondsTicks interval (n + 1) =
      secondsTicks interval n + if interval ≠ 0 ∧ interval ∣ 2 * (n + 1) then 1 else 0 := by
  unfold secondsTicks
  by_cases off : interval = 0
  · simp [off]
  · obtain ⟨cycles, inCycles⟩ : 2 ∣ Nat.lcm 2 interval := Nat.dvd_lcm_left 2 interval
    -- In whole cycles the divider is an ordinary one.
    have due : interval ≠ 0 ∧ interval ∣ 2 * (n + 1) ↔ cycles ∣ n + 1 := by
      have scaled : cycles ∣ n + 1 ↔ 2 * cycles ∣ 2 * (n + 1) :=
        (Nat.mul_dvd_mul_iff_left Nat.two_pos).symm
      rw [scaled, ← inCycles, Nat.lcm_dvd_iff]
      exact ⟨fun both => ⟨Nat.dvd_mul_right 2 _, both.2⟩, fun both => ⟨off, both.2⟩⟩
    rw [if_neg off, if_neg off, inCycles, Nat.mul_div_mul_left _ _ Nat.two_pos,
      Nat.mul_div_mul_left _ _ Nat.two_pos, Nat.succ_div, if_congr due rfl rfl]

namespace Machine

variable {σ : Type} [Core σ] {machine after : Machine σ}

/-- A step in which the core spares the control register is a tick of the counter. -/
theorem seconds_of_step {result : Step σ} (stepped : machine.step = .ok result)
    (sound : result.overflow = none) (noControl : ¬ machine.Writes 0x2008) :
    machine.board.registers.seconds.tick
        (onSecondsInterval result.machine.board.ticks machine.settings.secondsTickHalfCycles) =
      .ok result.machine.board.registers.seconds := by
  obtain ⟨cells, tick, ticked, ticking, rest⟩ := registers_of_step stepped sound
  obtain ⟨counter, counted, rfl, -⟩ := RegisterBank.of_tick ticking
  rw [counted]
  obtain same | ⟨offset, data, write, writes, written⟩ := rest
  · rw [same]
  · have elsewhere : offset ≠ 0x08 := by
      rintro rfl
      exact noControl writes
    rw [RegisterBank.seconds_of_write written, if_neg elsewhere]

/-- The action takes no steps and does not go back to power-on. -/
def Action.Pauses : Action σ → Prop
  | .step | .run _ | .runFrame | .reset => False
  | _ => True

/-- The action writes to the control register of the seconds. -/
def Action.WritesControl (action : Action σ) : Prop :=
  ∃ data, action = .pokeRegister 0x08 data

omit [Core σ] in
theorem seconds_of_pokeRegister {offset data : UInt8} {write : RegisterWrite}
    (poked : machine.pokeRegister offset data = .ok (write, after)) :
    after.settings = machine.settings ∧ after.board.ticks = machine.board.ticks ∧
      after.board.registers.seconds =
        if offset = 0x08 then machine.board.registers.seconds.setControl data
        else machine.board.registers.seconds := by
  obtain ⟨⟨_, board⟩, written, same⟩ := bind_eq_ok.mp poked
  cases same
  obtain ⟨registers, incidents, registerWritten, -, rfl⟩ := Board.of_writeRegister written
  exact ⟨rfl, rfl, RegisterBank.seconds_of_write registerWritten⟩

/-- Between steps clock and count stand still, and the control bits change by a write
only. -/
theorem seconds_of_pause {action : Action σ} (pauses : action.Pauses)
    (performed : machine.perform action = .ok after) :
    after.settings = machine.settings ∧ after.board.ticks = machine.board.ticks ∧
      after.board.registers.seconds.count = machine.board.registers.seconds.count ∧
      (¬ action.WritesControl →
        after.board.registers.seconds.control = machine.board.registers.seconds.control) := by
  refine ⟨settings_of_perform performed, ?_⟩
  cases action with
  | loadBios image =>
      cases performed
      cases loaded : machine.loadBios image with
      | error refusal => exact ⟨rfl, rfl, fun _ => rfl⟩
      | ok loadedMachine =>
          obtain ⟨bios, -, same⟩ := bind_eq_ok.mp loaded
          cases same
          exact ⟨rfl, rfl, fun _ => rfl⟩
  | loadCartridge image =>
      cases performed
      cases loaded : machine.loadCartridge image with
      | error refusal => exact ⟨rfl, rfl, fun _ => rfl⟩
      | ok loadedMachine =>
          obtain ⟨cartridge, -, same⟩ := bind_eq_ok.mp loaded
          cases same
          exact ⟨rfl, rfl, fun _ => rfl⟩
  | setTable | setRunning | exchangeCore | takeRedraw =>
      cases performed
      exact ⟨rfl, rfl, fun _ => rfl⟩
  | setKeys keys =>
      cases performed
      rw [board_setKeys]
      exact ⟨rfl, rfl, fun _ => rfl⟩
  | pokeRegister offset data =>
      obtain ⟨⟨write, _⟩, poked, rfl⟩ := of_map_eq_ok performed
      obtain ⟨-, ticks, seconds⟩ := seconds_of_pokeRegister poked
      refine ⟨ticks, ?_, fun spares => ?_⟩
      · rw [seconds]
        split <;> rfl
      · rw [seconds, if_neg]
        rintro rfl
        exact spares ⟨data, rfl⟩
  | raise offset mask =>
      obtain ⟨⟨raised, _⟩, done, rfl⟩ := of_map_eq_ok performed
      obtain ⟨⟨_, registers⟩, raising, same⟩ := bind_eq_ok.mp done
      cases same
      obtain ⟨cells, -, rfl⟩ := RegisterBank.of_raise raising
      exact ⟨rfl, rfl, fun _ => rfl⟩
  | peekRegister | view | coverage =>
      obtain ⟨_, -, rfl⟩ := of_map_eq_ok performed
      exact ⟨rfl, rfl, fun _ => rfl⟩
  | step | run | runFrame | reset => exact pauses.elim

/-- The machine has taken no step since power-on, whatever else the host has done. -/
inductive Unstepped : Machine σ → Prop
  | powerOn {table : CycleTable} {machine : Machine σ} :
      PoweredOn table machine → Unstepped machine
  | act {machine after : Machine σ} {action : Action σ} :
      Unstepped machine → action.Pauses → machine.perform action = .ok after → Unstepped after

/-- Since it was `origin`, the machine has taken `n` steps without a stack overflow, and
the control register of the seconds has not been written. -/
inductive Undisturbed (origin : Machine σ) : Nat → Machine σ → Prop
  | start : Undisturbed origin 0 origin
  | step {n : Nat} {now : Machine σ} {result : Step σ} :
      Undisturbed origin n now → now.step = .ok result → result.overflow = none →
        ¬ now.Writes 0x2008 → Undisturbed origin (n + 1) result.machine
  | act {n : Nat} {now next : Machine σ} {action : Action σ} :
      Undisturbed origin n now → action.Pauses → ¬ action.WritesControl →
        now.perform action = .ok next → Undisturbed origin n next

theorem Unstepped.clock (unstepped : machine.Unstepped) :
    machine.board.ticks = 0 ∧ machine.board.registers.seconds.count = 0 := by
  induction unstepped with
  | powerOn poweredOn =>
      obtain ⟨keyPad, registers⟩ := poweredOn.fresh.registers
      rw [registers]
      exact ⟨poweredOn.audit.1, rfl⟩
  | act _ pauses performed ih =>
      obtain ⟨-, ticks, count, -⟩ := seconds_of_pause pauses performed
      exact ⟨ticks.trans ih.1, count.trans ih.2⟩

/-- Where an enabled counter stands after `n` steps from power-on. -/
structure CountsSeconds (interval n : Nat) (machine : Machine σ) : Prop where
  paced : machine.settings.secondsTickHalfCycles.toNat = interval
  ticks : machine.board.ticks.toNat = 2 * n
  control : machine.board.registers.seconds.control = 1
  count : machine.board.registers.seconds.count.toNat = secondsTicks interval n % 2 ^ 24

/-- Enabling the counter before the first step. -/
theorem Unstepped.countsSeconds (unstepped : machine.Unstepped) {write : RegisterWrite}
    (poked : machine.pokeRegister 0x08 1 = .ok (write, after)) :
    CountsSeconds machine.settings.secondsTickHalfCycles.toNat 0 after := by
  obtain ⟨ticks, count⟩ := unstepped.clock
  obtain ⟨settings, sameTicks, seconds⟩ := seconds_of_pokeRegister poked
  rw [if_pos rfl] at seconds
  refine ⟨by rw [settings], ?_, ?_, ?_⟩
  · rw [sameTicks, ticks]
    rfl
  · rw [seconds]
    rfl
  · rw [seconds, secondsTicks_zero]
    show machine.board.registers.seconds.count.toNat = 0
    rw [count]
    rfl

/-- One more step is one more tick of the counter. -/
theorem CountsSeconds.step {interval n : Nat} {result : Step σ}
    (counts : CountsSeconds interval n machine) (stepped : machine.step = .ok result)
    (sound : result.overflow = none) (noControl : ¬ machine.Writes 0x2008) :
    CountsSeconds interval (n + 1) result.machine := by
  have passed := passed_of_step (awake_of_step stepped sound).1 stepped
  have time : result.machine.board.ticks.toNat = 2 * (n + 1) := by
    rw [passed.ticks, counts.ticks]
    omega
  have fires := onSecondsInterval_iff result.machine.board.ticks
    machine.settings.secondsTickHalfCycles
  rw [time, counts.paced] at fires
  have ticked := seconds_of_step stepped sound noControl
  have enabled : machine.board.registers.seconds.isEnabled = true := by
    rw [SecondsCounter.isEnabled, counts.control]
    rfl
  have free : machine.board.registers.seconds.isHeld = false := by
    rw [SecondsCounter.isHeld, counts.control]
    rfl
  have small : machine.board.registers.seconds.count.toNat < 2 ^ 24 := by
    rw [counts.count]
    exact Nat.mod_lt _ (by decide)
  obtain ⟨sameControl, count⟩ := SecondsCounter.count_of_tick_eq small ticked
  refine ⟨?_, time, sameControl.trans counts.control, ?_⟩
  · rw [passed.settings, counts.paced]
  · rw [count, free, if_neg Bool.false_ne_true, enabled, Bool.and_true, counts.count,
      secondsTicks_succ, if_congr fires rfl rfl, Nat.mod_add_mod]

theorem CountsSeconds.act {interval n : Nat} {action : Action σ}
    (counts : CountsSeconds interval n machine) (pauses : action.Pauses)
    (spares : ¬ action.WritesControl) (performed : machine.perform action = .ok after) :
    CountsSeconds interval n after := by
  obtain ⟨settings, ticks, count, control⟩ := seconds_of_pause pauses performed
  exact
    { paced := by rw [settings, counts.paced]
      ticks := by rw [ticks, counts.ticks]
      control := (control spares).trans counts.control
      count := by rw [count, counts.count] }

theorem Undisturbed.countsSeconds {interval n : Nat} {origin now : Machine σ}
    (undisturbed : Undisturbed origin n now) (enabled : CountsSeconds interval 0 origin) :
    CountsSeconds interval n now := by
  induction undisturbed with
  | start => exact enabled
  | step _ stepped sound noControl ih => exact ih.step stepped sound noControl
  | act _ pauses spares performed ih => exact ih.act pauses spares performed

/-- The next step neither overflows the stack nor writes to the control register of the
seconds. -/
structure SparesSeconds (machine : Machine σ) : Prop where
  sound : ∀ stackPointer, ¬ machine.Overflows stackPointer
  noControl : ¬ machine.Writes 0x2008

/-- A frame in which the core does nothing spares everything. -/
theorem sparesSeconds_of_idle (idle : machine.comingFrame = .ok {}) : machine.SparesSeconds := by
  constructor
  · rintro stackPointer ⟨frame, shown, -, rfl, beyond⟩
    cases idle.symm.trans shown
    exact absurd beyond UInt16.not_lt_zero
  · rintro ⟨frame, shown, writing, -⟩
    cases idle.symm.trans shown
    cases writing

/-- A young machine takes such steps. -/
theorem exists_undisturbed {n bound age : Nat} (awake : machine.haltedAt = none)
    (aged : machine.board.Aged bound age) (room : bound + 99 * n < 2 ^ 62)
    (young : age + n < 2 ^ 32)
    (spares : ∀ i < n, ∀ before, machine.goOn i = .ok before → before.SparesSeconds) :
    ∃ now, machine.run n = .ok (none, now) ∧ Undisturbed machine n now := by
  let Holds (i : Nat) (now : Machine σ) : Prop := now.haltedAt = none ∧ Undisturbed machine i now
  have advance {i : Nat} {before : Machine σ} {result : Step σ} (held : Holds i before)
      (sparing : before.SparesSeconds) (stepped : before.step = .ok result) :
      result.overflow = none ∧ Holds (i + 1) result.machine := by
    obtain ⟨awake, undisturbed⟩ := held
    have sound : result.overflow = none := overflow_eq_none_of_step sparing.sound awake stepped
    exact ⟨sound, haltedAt_of_step stepped sound,
      undisturbed.step stepped sound sparing.noControl⟩
  obtain ⟨now, ran, -, undisturbed⟩ :=
    exists_run Holds advance ⟨awake, .start⟩ aged room young spares
  rw [Nat.zero_add] at undisturbed
  exact ⟨now, ran, undisturbed⟩

/-- What the seconds counter reads.

After any operations on a register bank, it is the number of ticks that have counted since
the latest one that went back to zero, cut to 24 bits; and there is room to add one. If it
is enabled before the first step of a machine and its control is not written again, it is
the number of times that the timestamp has been a common multiple of two and the interval.
At power-on the host can enable it, and steps that spare it do succeed. -/
theorem seconds_count :
    (∀ operations : List RegisterBank.Operation,
      ∃ bank, RegisterBank.initial.performAll operations = .ok bank ∧
        bank.ShowsSeconds (RegisterBank.Operation.secondsCounted operations % 2 ^ 24) ∧
        ∃ next, add32 bank.seconds.count 1 = .ok next) ∧
    (∀ (σ : Type) [Core σ] (machine prepared : Machine σ) (write : RegisterWrite),
      machine.Unstepped → machine.pokeRegister 0x08 1 = .ok (write, prepared) →
        ∀ n now, Undisturbed prepared n now → now.board.registers.ShowsSeconds
          (secondsTicks machine.settings.secondsTickHalfCycles.toNat n % 2 ^ 24)) ∧
    (∀ (σ : Type) [Core σ] (table : CycleTable) (machine : Machine σ),
      machine.Reachable → PoweredOn table machine →
        ∃ write prepared, machine.pokeRegister 0x08 1 = .ok (write, prepared) ∧
          ∀ n < 2 ^ 32,
            (∀ i < n, ∀ before, prepared.goOn i = .ok before → before.SparesSeconds) →
              ∃ now, prepared.run n = .ok (none, now) ∧ Undisturbed prepared n now) := by
  refine ⟨?_, ?_, ?_⟩
  · intro operations
    obtain ⟨bank, performed, follows, count⟩ := RegisterBank.performAll_seconds operations
    have small := follows.ranges.seconds
    exact ⟨bank, performed, RegisterBank.showsSeconds_of_count count, _,
      add32_eq_ok (Nat.lt_of_le_of_lt (Nat.succ_le_of_lt small) (by decide))⟩
  · intro σ _ machine prepared write unstepped poked n now undisturbed
    have counts := undisturbed.countsSeconds (unstepped.countsSeconds poked)
    exact RegisterBank.showsSeconds_of_count counts.count
  · intro σ _ table machine reachable poweredOn
    have aged := poweredOn.aged reachable.intact
    obtain ⟨⟨write, board⟩, written⟩ :=
      (aged.bounded.ready (by omega) : machine.board.Ready 1).writeRegister_succeeds 0x08 1
    obtain ⟨registers, incidents, -, -, same⟩ := Board.of_writeRegister written
    have preparedAged : board.Aged (0 + 9) 0 :=
      aged.move (.writeRegister _ _ written) (by rw [same]) (by rw [same])
    refine ⟨write, { machine with board }, by rw [pokeRegister, written, ok_bind], ?_⟩
    intro n short spares
    exact exists_undisturbed poweredOn.fresh.awake preparedAged (by omega) (by omega) spares

/-- An idle core, and a divider that fires at every third half cycle. -/
def oddMetronome : Machine ScriptedCore :=
  start {} { secondsTickHalfCycles := 3 }

/-- Ten half cycles have three multiples of three, of which one is even. -/
theorem seconds_count_oddMetronome :
    ∃ write prepared now, oddMetronome.pokeRegister 0x08 1 = .ok (write, prepared) ∧
      prepared.run 5 = .ok (none, now) ∧ now.board.registers.ShowsSeconds 1 := by
  obtain ⟨-, shows, runs⟩ := seconds_count
  have reachable : oddMetronome.Reachable := ⟨0, .start _ _⟩
  have poweredOn : PoweredOn .blank oddMetronome := .start _ _
  obtain ⟨write, prepared, poked, run⟩ := runs ScriptedCore .blank oddMetronome reachable poweredOn
  have idle : ∀ i < 5, ((oddMetronome.pokeRegister 0x08 1).map Prod.snd >>= goOn i >>=
      comingFrame) = .ok {} := by decide +kernel
  obtain ⟨now, ran, undisturbed⟩ := run 5 (by decide) fun i below before gone => by
    have coming := idle i below
    rw [poked, Except.map, ok_bind, gone, ok_bind] at coming
    exact sparesSeconds_of_idle coming
  exact ⟨write, prepared, now, poked, ran,
    shows ScriptedCore oddMetronome prepared write (.powerOn poweredOn) poked 5 now undisturbed⟩

end Machine

end Handheld
