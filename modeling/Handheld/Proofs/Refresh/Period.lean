/-
# The period of the refresh controller

A controller to which nobody writes goes round and round. A hunt of `k` steps takes 65
ticks for each of them. The tick after the last one completes the frame of an active
controller, so that its period is `65 * k + 1`; an inactive one wraps a full count later.

The ticks themselves come from a divider of the core clock, which runs one cycle
ahead. How many there are in a number of cycles is counted here as well.
-/

import Mathlib.Data.Nat.Basic
import Handheld.Clock
import Handheld.Proofs.Refresh.Hunt

namespace Handheld

namespace RefreshController

variable {controller : RefreshController} {k phase : Nat}

/-- The number of ticks in a round of `k` hunts before the one that ends it. -/
def lastPhase (k : Nat) : (active : Bool) → Nat
  | true => 65 * k
  | false => 65 * k + 64

/-- How a round ends. -/
def roundEnd : (active : Bool) → RefreshTick
  | true => .frame
  | false => .wrap

/-- How the tick comes out that follows the first `phase` ones of a round. -/
def outcomeAt (active : Bool) (k phase : Nat) : RefreshTick :=
  if phase = lastPhase k active then roundEnd active
  else if phase % 65 = 64 then .hunt
  else .counting

/-- A round takes the controller `k` hunts, and `phase` ticks of one have passed. -/
structure Turning (controller : RefreshController) (k phase : Nat) : Prop where
  matched : controller.rateMatch.toNat = 16 * k
  few : k ≤ 11
  one_le_counter : 1 ≤ controller.counter.toNat
  counter_le : controller.counter.toNat ≤ 0x41
  phase_eq : 65 * (controller.rate.toNat / 16) + controller.counter.toNat = phase + 1
  phase_le : phase ≤ lastPhase k controller.isActive

namespace Turning

variable (turning : controller.Turning k phase)
include turning

theorem fine_eq_match_iff :
    fine controller.rate = controller.rateMatch ↔ controller.rate.toNat / 16 = k := by
  have matched := turning.matched
  rw [← UInt8.toNat_inj, toNat_fine]
  omega

/-- Either way of ending a round is the beginning of the next one. -/
theorem restart : controller.restart.Turning k 0 := by
  have cleared := toNat_low controller.rate
  refine ⟨turning.matched, turning.few, counterReset_bounds.1, counterReset_bounds.2, ?_,
    Nat.zero_le _⟩
  show 65 * ((controller.rate &&& 0x0F).toNat / 16) + counterReset.toNat = 0 + 1
  rw [cleared, show counterReset.toNat = 1 from rfl]
  omega

/-- A full count before the match moves the fine nibble, and the next count begins. -/
theorem hunt (full : controller.counter.toNat = 0x41) (short : controller.rate.toNat / 16 < k)
    (notLast : phase ≠ lastPhase k controller.isActive) :
    { controller with counter := counterReset, rate := controller.rate + 0x10 }.Turning k
      (phase + 1) := by
  obtain ⟨matched, few, -, -, position, bound⟩ := turning
  have moved : (controller.rate + 0x10).toNat = controller.rate.toNat + 0x10 := by
    rw [UInt8.toNat_add]
    simp only [UInt8.reduceToNat]
    omega
  refine ⟨matched, few, counterReset_bounds.1, counterReset_bounds.2, ?_,
    Nat.succ_le_of_lt (Nat.lt_of_le_of_ne bound notLast)⟩
  show 65 * ((controller.rate + 0x10).toNat / 16) + counterReset.toNat = phase + 1 + 1
  rw [moved, show counterReset.toNat = 1 from rfl]
  omega

/-- A count that is not full goes on. -/
theorem count (counted : (controller.counter + 1).toNat = controller.counter.toNat + 1)
    (room : controller.counter.toNat < 0x41)
    (notLast : phase ≠ lastPhase k controller.isActive) :
    { controller with counter := controller.counter + 1 }.Turning k (phase + 1) := by
  obtain ⟨matched, few, -, -, position, bound⟩ := turning
  refine ⟨matched, few, ?_, ?_, ?_, Nat.succ_le_of_lt (Nat.lt_of_le_of_ne bound notLast)⟩
  · show 1 ≤ (controller.counter + 1).toNat
    omega
  · show (controller.counter + 1).toNat ≤ 0x41
    omega
  · show 65 * (controller.rate.toNat / 16) + (controller.counter + 1).toNat = phase + 1 + 1
    omega

/-- A tick ends the round at its last phase, and is one more tick of the round
everywhere else. -/
theorem tick :
    controller.tick.1 = outcomeAt controller.isActive k phase ∧
      controller.tick.2.isActive = controller.isActive ∧
      controller.tick.2.Turning k
        (if phase = lastPhase k controller.isActive then 0 else phase + 1) := by
  have match_iff := turning.fine_eq_match_iff
  have low := turning.one_le_counter
  have high := turning.counter_le
  have position := turning.phase_eq
  have bound := turning.phase_le
  have counted : (controller.counter + 1).toNat = controller.counter.toNat + 1 := by
    rw [UInt8.toNat_add]
    simp only [UInt8.reduceToNat]
    omega
  rcases controller.tick_cases with ⟨complete, active, ticked⟩ | ⟨complete, idle, expired, ticked⟩ |
      ⟨short, expired, ticked⟩ | ⟨neither, running, ticked⟩
  · rw [match_iff] at complete
    simp only [active, lastPhase] at bound
    have last : phase = lastPhase k true := by
      simp only [lastPhase]
      omega
    rw [ticked, active, outcomeAt, if_pos last, if_pos last]
    exact ⟨rfl, active, turning.restart⟩
  · have full : controller.counter.toNat + 1 = 0x42 := counted.symm.trans (congrArg _ expired)
    rw [match_iff] at complete
    have last : phase = lastPhase k false := by
      simp only [lastPhase]
      omega
    rw [ticked, idle, outcomeAt, if_pos last, if_pos last]
    exact ⟨rfl, idle, turning.restart⟩
  · have full : controller.counter.toNat + 1 = 0x42 := counted.symm.trans (congrArg _ expired)
    rw [ne_eq, match_iff] at short
    -- A full count ends at no multiple of 65, and only after the hunt where a wrap is due.
    have notLast : phase ≠ lastPhase k controller.isActive ∧ controller.rate.toNat / 16 < k := by
      cases active : controller.isActive <;> simp only [active, lastPhase] at bound ⊢ <;> omega
    have hunted : outcomeAt controller.isActive k phase = .hunt := by
      rw [outcomeAt, if_neg notLast.1, if_pos (by omega)]
    rw [ticked, hunted, if_neg notLast.1]
    exact ⟨rfl, rfl, turning.hunt (by omega) notLast.2 notLast.1⟩
  · rw [match_iff] at neither
    have room : (controller.counter + 1).toNat ≠ 0x42 := fun expired =>
      running (UInt8.toNat.inj expired)
    have notLast : phase ≠ lastPhase k controller.isActive := by
      cases active : controller.isActive with
      | true =>
          have short : controller.rate.toNat / 16 ≠ k := fun complete => neither ⟨complete, active⟩
          simp only [active, lastPhase] at bound ⊢
          omega
      | false =>
          simp only [active, lastPhase] at bound ⊢
          omega
    have counting : outcomeAt controller.isActive k phase = .counting := by
      rw [outcomeAt, if_neg notLast, if_neg (by omega)]
    rw [ticked, counting, if_neg notLast]
    exact ⟨rfl, rfl, turning.count counted (by omega) notLast⟩

end Turning

/-- The controller is active, a frame takes it `k` hunts, and `phase` ticks have
passed since the last frame. -/
structure Cycling (controller : RefreshController) (k phase : Nat) : Prop where
  active : controller.isActive = true
  matched : controller.rateMatch.toNat = 16 * k
  few : k ≤ 11
  one_le_counter : 1 ≤ controller.counter.toNat
  counter_le : controller.counter.toNat ≤ 0x41
  phase_eq : 65 * (controller.rate.toNat / 16) + controller.counter.toNat = phase + 1
  phase_le : phase ≤ 65 * k

/-- The tile base takes no part in this. -/
theorem Cycling.withMap (cycling : controller.Cycling k phase) (map : UInt32) :
    { controller with map }.Cycling k phase :=
  { cycling with }

/-- To cycle is to turn while active. -/
theorem cycling_iff :
    controller.Cycling k phase ↔ controller.isActive = true ∧ controller.Turning k phase := by
  constructor
  · intro cycling
    refine ⟨cycling.active, { cycling with phase_le := ?_ }⟩
    rw [cycling.active]
    exact cycling.phase_le
  · rintro ⟨active, turning⟩
    have bound := turning.phase_le
    rw [active] at bound
    exact { turning with active, phase_le := bound }

/-- A tick completes a frame at the end of the period, and is one more tick of the
period everywhere else. -/
theorem Cycling.tick (cycling : controller.Cycling k phase) :
    (controller.tick.1 = .frame ↔ phase = 65 * k) ∧
      controller.tick.2.Cycling k (if phase = 65 * k then 0 else phase + 1) := by
  obtain ⟨active, turning⟩ := cycling_iff.mp cycling
  obtain ⟨outcome, stillActive, turned⟩ := turning.tick
  rw [active] at outcome stillActive turned
  refine ⟨?_, cycling_iff.mpr ⟨stillActive, turned⟩⟩
  rw [outcome, outcomeAt, lastPhase, roundEnd]
  split_ifs with last hunted <;> simp [last]

/-- The mode register holds the bit that makes the controller active. -/
theorem testBit_setMode (controller : RefreshController) (data : UInt8) :
    (controller.setMode data).mode.toNat.testBit 1 = data.toNat.testBit 1 := by
  rw [setMode, UInt8.toNat_and, Nat.testBit_and]
  exact Bool.and_true _

/-- Where no tick was a hunt there are no hunts, wherever the count starts. -/
theorem hunts_eq_zero {history : List Event} (none : .ticked .hunt ∉ history) :
    hunts history = 0 := by
  induction history with
  | nil => rfl
  | cons event earlier ih =>
      rw [List.mem_cons, not_or] at none
      cases starts : restarts earlier event with
      | true => exact hunts_cons_of_restarts starts
      | false =>
          rw [hunts_cons_of_not_restarts starts (Ne.symm none.1)]
          exact ih none.2

/-- A controller that has just been set up is at the start of a period. -/
theorem Hunting.cycling {history : List Event} (hunting : Hunting history controller)
    (active : controller.isActive = true) (counter : controller.counter = counterReset)
    (none : .ticked .hunt ∉ history) :
    controller.Cycling ((matchOf (lastRate history)).toNat / 16) 0 := by
  have chosen : controller.rateMatch = matchOf (lastRate history) :=
    hunting.matched.trans (matchOf_congr hunting.coarse_rate)
  obtain ⟨aligned, small⟩ := matchOf_spec (lastRate history)
  have fine := hunting.fine_eq
  refine ⟨active, ?_, by omega, hunting.one_le_counter, hunting.counter_le, ?_, Nat.zero_le _⟩
  · rw [chosen]
    omega
  · rw [fine, hunts_eq_zero none, counter]
    rfl

/-- Frames and phase say how many ticks there were. -/
structure Counts (ticks k frames phase : Nat) : Prop where
  ticks_eq : ticks = (65 * k + 1) * frames + phase
  phase_le : phase ≤ 65 * k

/-- The tick that completes a frame ends a period. -/
theorem Counts.tick {ticks frames : Nat} (counts : Counts ticks k frames phase) :
    Counts (ticks + 1) k (frames + if phase = 65 * k then 1 else 0)
      (if phase = 65 * k then 0 else phase + 1) := by
  obtain ⟨total, bound⟩ := counts
  by_cases last : phase = 65 * k
  · rw [if_pos last, if_pos last]
    refine ⟨?_, Nat.zero_le _⟩
    rw [Nat.mul_succ, total, last]
    rfl
  · rw [if_neg last, if_neg last]
    refine ⟨?_, by omega⟩
    rw [total, Nat.add_assoc]
    rfl

theorem Counts.frames_eq {ticks frames : Nat} (counts : Counts ticks k frames phase) :
    ticks / (65 * k + 1) = frames := by
  have inside : phase / (65 * k + 1) = 0 := Nat.div_eq_of_lt (Nat.lt_succ_of_le counts.phase_le)
  rw [counts.ticks_eq, Nat.mul_add_div (Nat.succ_pos _), inside, Nat.add_zero]

end RefreshController

theorem onRefreshInterval_iff (timestamp interval : UInt64) :
    onRefreshInterval timestamp interval = true ↔
      interval.toNat ≠ 0 ∧ interval.toNat ∣ timestamp.toNat / 2 + 1 := by
  have half : (timestamp / 2 + 1).toNat = timestamp.toNat / 2 + 1 := by
    have := timestamp.toNat_lt
    rw [UInt64.toNat_add, UInt64.toNat_div]
    simp only [UInt64.reduceToNat]
    omega
  simp only [onRefreshInterval, Bool.and_eq_true, bne_iff_ne, beq_iff_eq, ne_eq,
    ← UInt64.toNat_inj, UInt64.toNat_mod, half, UInt64.toNat_zero, Nat.dvd_iff_mod_eq_zero]

/-- The number of ticks of the refresh divider in `n` cycles from power-on. -/
def refreshTicks (interval n : Nat) : Nat :=
  if interval = 0 then 0 else (n + 1) / interval - 1 / interval

theorem refreshTicks_zero (interval : Nat) : refreshTicks interval 0 = 0 := by
  unfold refreshTicks
  split
  · rfl
  · exact Nat.sub_self _

theorem refreshTicks_succ (interval n : Nat) :
    refreshTicks interval (n + 1) =
      refreshTicks interval n + if interval ≠ 0 ∧ interval ∣ n + 2 then 1 else 0 := by
  unfold refreshTicks
  by_cases off : interval = 0
  · simp [off]
  · have grows : 1 / interval ≤ (n + 1) / interval := Nat.div_le_div_right (Nat.le_add_left 1 n)
    have next : (n + 1 + 1) / interval =
        (n + 1) / interval + if interval ∣ n + 2 then 1 else 0 := Nat.succ_div
    rw [if_neg off, if_neg off, next]
    by_cases due : interval ∣ n + 2
    · rw [if_pos due, if_pos ⟨off, due⟩]
      omega
    · rw [if_neg due, if_neg fun both => due both.2]
      omega

end Handheld
