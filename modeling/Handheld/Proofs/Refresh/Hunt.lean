/-
# The hunt of the refresh controller

Mode writes, rate writes, tile base writes and ticks may come in any order. The
fine nibble of the rate then always counts the hunt ticks since the hunt last
started over, and it never passes the match value of the coarse bits. Both facts
are stated against a history of what was done to the controller, which knows
nothing of its state.

Only the outcome of single ticks is described here. How many ticks lie between
two frames is a question about the frame counter, which this module bounds but
does not follow.
-/

import Mathlib.Data.FinEnum
import Handheld.RefreshController

namespace Handheld.RefreshController

/-! The low nibble of a rate holds its coarse bits, the high nibble is the fine one.
As numbers they are the remainder and the quotient by sixteen. -/

theorem toNat_low (rate : UInt8) : (rate &&& 0x0F).toNat = rate.toNat % 16 := by
  rw [UInt8.toNat_and]
  exact Nat.and_two_pow_sub_one_eq_mod rate.toNat 4

theorem toNat_fine : ∀ rate : UInt8, (fine rate).toNat = 16 * (rate.toNat / 16) := by
  decide +kernel

theorem coarse_low (rate : UInt8) : coarse (rate &&& 0x0F) = coarse rate := by
  simp only [coarse, UInt8.and_assoc]
  rfl

/-- The coarse bits are a matter of the low nibble alone. -/
theorem coarse_eq_of_mod_eq {first second : UInt8}
    (same : first.toNat % 16 = second.toNat % 16) : coarse first = coarse second := by
  have low : first &&& 0x0F = second &&& 0x0F := by
    apply UInt8.toNat.inj
    rw [toNat_low, toNat_low, same]
  rw [← coarse_low first, ← coarse_low second, low]

/-- Joining a fine nibble with a low one leaves both as they were. -/
theorem toNat_join : ∀ rate data : UInt8,
    (fine rate ||| (data &&& 0x0F)).toNat = 16 * (rate.toNat / 16) + data.toNat % 16 := by
  intro rate data
  rw [UInt8.toNat_or, toNat_fine, toNat_low]
  exact (Nat.two_pow_add_eq_or_of_lt (i := 4) (by omega) _).symm

theorem matchOf_congr {first second : UInt8} (same : coarse first = coarse second) :
    matchOf first = matchOf second := by
  rw [matchOf, matchOf, same]

/-- A match value is a fine nibble in place, and small enough for one more step. -/
theorem matchOf_spec (rate : UInt8) :
    (matchOf rate).toNat % 16 = 0 ∧ (matchOf rate).toNat ≤ 0xB0 := by
  unfold matchOf
  split <;> decide

theorem counterReset_bounds : 1 ≤ counterReset.toNat ∧ counterReset.toNat ≤ 0x41 := by
  decide

/-- Rate writes leave everything alone that is not about the rate. -/
theorem writeRate_keeps (controller : RefreshController) (data : UInt8) :
    (controller.writeRate data).2.mode = controller.mode ∧
      (controller.writeRate data).2.counter = controller.counter ∧
      (controller.writeRate data).2.map = controller.map := by
  unfold writeRate
  split <;> exact ⟨rfl, rfl, rfl⟩

/-- What can be done to a refresh controller. -/
inductive Operation
  | setMode (data : UInt8)
  | writeRate (data : UInt8)
  | setMapByte (index : Nat) (data : UInt8)
  | tick
  deriving DecidableEq, Repr

/-- What was done to a refresh controller, and how each tick came out. -/
inductive Event
  | modeSet (data : UInt8)
  | rateWritten (data : UInt8)
  | mapByteSet (index : Nat) (data : UInt8)
  | ticked (outcome : RefreshTick)
  deriving DecidableEq, Repr

/-- Carry out one operation. -/
def perform (controller : RefreshController) : Operation → Event × RefreshController
  | .setMode data => (.modeSet data, controller.setMode data)
  | .writeRate data => (.rateWritten data, (controller.writeRate data).2)
  | .setMapByte index data => (.mapByteSet index data, controller.setMapByte index data)
  | .tick => (.ticked controller.tick.1, controller.tick.2)

/-- Carry out operations in order, on a controller with a history. Histories
have the latest event first. -/
def runFrom (history : List Event) (controller : RefreshController) :
    List Operation → List Event × RefreshController
  | [] => (history, controller)
  | operation :: rest =>
    runFrom ((controller.perform operation).1 :: history) (controller.perform operation).2 rest

/-- Carry out operations on a new controller. -/
def run (operations : List Operation) : List Event × RefreshController :=
  runFrom [] initial operations

/-- The byte of the last rate write, zero if there was none. -/
def lastRate : List Event → UInt8
  | [] => 0
  | .rateWritten data :: _ => data
  | _ :: earlier => lastRate earlier

/-- Whether an event starts the hunt over: a rate write with other coarse bits
than the one before it, a frame, or a wrap. -/
def restarts (earlier : List Event) : Event → Bool
  | .rateWritten data => coarse data != coarse (lastRate earlier)
  | .ticked outcome => outcome = .frame || outcome = .wrap
  | _ => false

/-- The events since the hunt last started over. -/
def sinceRestart : List Event → List Event
  | [] => []
  | event :: earlier => if restarts earlier event then [] else event :: sinceRestart earlier

/-- The number of hunt ticks since the hunt last started over. -/
def hunts (history : List Event) : Nat :=
  (sinceRestart history).count (.ticked .hunt)

theorem hunts_cons_of_restarts {event : Event} {earlier : List Event}
    (starts : restarts earlier event = true) : hunts (event :: earlier) = 0 := by
  simp [hunts, sinceRestart, starts]

theorem hunts_cons_of_not_restarts {event : Event} {earlier : List Event}
    (continues : restarts earlier event = false) (other : event ≠ .ticked .hunt) :
    hunts (event :: earlier) = hunts earlier := by
  simp [hunts, sinceRestart, continues, other]

theorem hunts_cons_hunt (earlier : List Event) :
    hunts (.ticked .hunt :: earlier) = hunts earlier + 1 := by
  simp [hunts, sinceRestart, restarts]

/-- How the state of a controller follows from its history. -/
structure Hunting (history : List Event) (controller : RefreshController) : Prop where
  matched : controller.rateMatch = matchOf controller.rate
  one_le_counter : 1 ≤ controller.counter.toNat
  counter_le : controller.counter.toNat ≤ 0x41
  low_eq : controller.rate.toNat % 16 = (lastRate history).toNat % 16
  fine_eq : controller.rate.toNat / 16 = hunts history
  fine_le : controller.rate.toNat / 16 ≤ controller.rateMatch.toNat / 16

/-- Everything a tick can do. Hunting wants a full count and no match, a frame a
match and an active controller, a wrap a full count and a match without one. -/
theorem tick_cases (controller : RefreshController) :
    (fine controller.rate = controller.rateMatch ∧ controller.isActive = true ∧
      controller.tick = (.frame, controller.restart)) ∨
    (fine controller.rate = controller.rateMatch ∧ controller.isActive = false ∧
      controller.counter + 1 = counterTerminal ∧ controller.tick = (.wrap, controller.restart)) ∨
    (fine controller.rate ≠ controller.rateMatch ∧ controller.counter + 1 = counterTerminal ∧
      controller.tick =
        (.hunt, { controller with counter := counterReset, rate := controller.rate + 0x10 })) ∨
    (¬ (fine controller.rate = controller.rateMatch ∧ controller.isActive = true) ∧
      controller.counter + 1 ≠ counterTerminal ∧
      controller.tick = (.counting, { controller with counter := controller.counter + 1 })) := by
  by_cases matched : fine controller.rate = controller.rateMatch
  · cases active : controller.isActive with
    | true => exact .inl ⟨matched, rfl, by simp [tick, matched, active, restart]⟩
    | false =>
      by_cases expired : controller.counter + 1 = counterTerminal
      · refine .inr (.inl ⟨matched, rfl, expired, ?_⟩)
        simp [tick, matched, active, expired, restart]
      · refine .inr (.inr (.inr ⟨by simp, expired, ?_⟩))
        simp [tick, matched, active, expired]
  · by_cases expired : controller.counter + 1 = counterTerminal
    · exact .inr (.inr (.inl ⟨matched, expired, by simp [tick, matched, expired]⟩))
    · refine .inr (.inr (.inr ⟨fun both => matched both.1, expired, ?_⟩))
      simp [tick, matched, expired]

namespace Hunting

variable {history : List Event} {controller : RefreshController}

/-- The fine nibble has reached its match exactly when the hunts are complete. -/
theorem fine_eq_match_iff (hunting : Hunting history controller) :
    fine controller.rate = controller.rateMatch ↔
      hunts history = controller.rateMatch.toNat / 16 := by
  have aligned : controller.rateMatch.toNat % 16 = 0 := by
    rw [hunting.matched]
    exact (matchOf_spec _).1
  rw [← hunting.fine_eq, ← UInt8.toNat_inj, toNat_fine]
  omega

/-- The count of the next tick fits into its byte. -/
theorem counter_add_one (hunting : Hunting history controller) :
    (controller.counter + 1).toNat = controller.counter.toNat + 1 := by
  have := hunting.counter_le
  rw [UInt8.toNat_add]
  simp only [UInt8.reduceToNat]
  omega

/-- Short of its match the fine nibble has room for one more step. -/
theorem rate_lt_of_ne (hunting : Hunting history controller)
    (short : fine controller.rate ≠ controller.rateMatch) :
    controller.rate.toNat / 16 < controller.rateMatch.toNat / 16 ∧
      controller.rateMatch.toNat / 16 ≤ 11 := by
  have bound : controller.rateMatch.toNat ≤ 0xB0 := by
    rw [hunting.matched]
    exact (matchOf_spec _).2
  have below := hunting.fine_le
  rw [ne_eq, hunting.fine_eq_match_iff, ← hunting.fine_eq] at short
  omega

/-- A new controller has no history. -/
theorem initial : Hunting [] RefreshController.initial := by
  constructor <;> decide

/-- Mode writes leave count and hunt alone. -/
theorem setMode (hunting : Hunting history controller) (data : UInt8) :
    Hunting (.modeSet data :: history) (controller.setMode data) where
  matched := hunting.matched
  one_le_counter := hunting.one_le_counter
  counter_le := hunting.counter_le
  low_eq := hunting.low_eq
  fine_eq := by
    rw [hunts_cons_of_not_restarts rfl (by simp)]
    exact hunting.fine_eq
  fine_le := hunting.fine_le

/-- So do writes of the tile base. -/
theorem setMapByte (hunting : Hunting history controller) (index : Nat) (data : UInt8) :
    Hunting (.mapByteSet index data :: history) (controller.setMapByte index data) where
  matched := hunting.matched
  one_le_counter := hunting.one_le_counter
  counter_le := hunting.counter_le
  low_eq := hunting.low_eq
  fine_eq := by
    rw [hunts_cons_of_not_restarts rfl (by simp)]
    exact hunting.fine_eq
  fine_le := hunting.fine_le

/-- A rate write compares with the coarse bits in place, which are those of the
rate write before it. -/
theorem coarse_rate (hunting : Hunting history controller) :
    coarse controller.rate = coarse (lastRate history) :=
  coarse_eq_of_mod_eq hunting.low_eq

/-- A rate write either restarts the hunt with a new match value, or replaces
the low nibble only. -/
theorem writeRate (hunting : Hunting history controller) (data : UInt8) :
    Hunting (.rateWritten data :: history) (controller.writeRate data).2 := by
  by_cases same : coarse controller.rate = coarse data
  · -- The match value in place is still the one of the new low nibble.
    have written : (controller.writeRate data).2 =
        { controller with rate := fine controller.rate ||| (data &&& 0x0F) } := by
      simp [RefreshController.writeRate, same]
    have continues : restarts history (.rateWritten data) = false := by
      simp [restarts, ← hunting.coarse_rate, same]
    have joined := toNat_join controller.rate data
    have kept : (fine controller.rate ||| (data &&& 0x0F)).toNat / 16 =
        controller.rate.toNat / 16 := by omega
    have low : (fine controller.rate ||| (data &&& 0x0F)).toNat % 16 = data.toNat % 16 := by omega
    rw [written]
    refine ⟨?_, hunting.one_le_counter, hunting.counter_le, low, ?_, ?_⟩
    · exact hunting.matched.trans
        (matchOf_congr (same.trans (coarse_eq_of_mod_eq low).symm))
    · rw [hunts_cons_of_not_restarts continues (by simp), ← hunting.fine_eq]
      exact kept
    · exact kept.trans_le hunting.fine_le
  · have written : (controller.writeRate data).2 =
        { controller with rate := data &&& 0x0F, rateMatch := matchOf data } := by
      simp [RefreshController.writeRate, same]
    have starts : restarts history (.rateWritten data) = true := by
      simp [restarts, ← hunting.coarse_rate, Ne.symm same]
    have cleared := toNat_low data
    have none_left : (data &&& 0x0F).toNat / 16 = 0 := by omega
    rw [written]
    refine ⟨?_, hunting.one_le_counter, hunting.counter_le, ?_, ?_, ?_⟩
    · exact matchOf_congr (coarse_low data).symm
    · show (data &&& 0x0F).toNat % 16 = data.toNat % 16
      omega
    · rw [hunts_cons_of_restarts starts]
      exact none_left
    · exact none_left.trans_le (Nat.zero_le _)

/-- Both ways of starting over leave the low nibble and forget the hunt. -/
theorem restart (hunting : Hunting history controller) {outcome : RefreshTick}
    (starts : restarts history (.ticked outcome) = true) :
    Hunting (.ticked outcome :: history) controller.restart := by
  have cleared := toNat_low controller.rate
  have none_left : (controller.rate &&& 0x0F).toNat / 16 = 0 := by omega
  refine ⟨?_, counterReset_bounds.1, counterReset_bounds.2, ?_, ?_, ?_⟩
  · exact hunting.matched.trans (matchOf_congr (coarse_low controller.rate).symm)
  · show (controller.rate &&& 0x0F).toNat % 16 = (lastRate history).toNat % 16
    have := hunting.low_eq
    omega
  · rw [hunts_cons_of_restarts starts]
    exact none_left
  · exact none_left.trans_le (Nat.zero_le _)

/-- A hunt tick moves the fine nibble up by one, within the byte. -/
theorem toNat_rate_step (hunting : Hunting history controller)
    (short : fine controller.rate ≠ controller.rateMatch) :
    (controller.rate + 0x10).toNat = controller.rate.toNat + 0x10 := by
  have := hunting.rate_lt_of_ne short
  rw [UInt8.toNat_add]
  simp only [UInt8.reduceToNat]
  omega

theorem tick (hunting : Hunting history controller) :
    Hunting (.ticked controller.tick.1 :: history) controller.tick.2 := by
  rcases controller.tick_cases with ⟨-, -, ticked⟩ | ⟨-, -, -, ticked⟩ |
      ⟨short, expired, ticked⟩ | ⟨-, running, ticked⟩
  · rw [ticked]
    exact hunting.restart rfl
  · rw [ticked]
    exact hunting.restart rfl
  · rw [ticked]
    have moved := hunting.toNat_rate_step short
    have low : (controller.rate + 0x10).toNat % 16 = controller.rate.toNat % 16 := by omega
    have up : (controller.rate + 0x10).toNat / 16 = controller.rate.toNat / 16 + 1 := by omega
    refine ⟨?_, counterReset_bounds.1, counterReset_bounds.2, low.trans hunting.low_eq, ?_, ?_⟩
    · exact hunting.matched.trans (matchOf_congr (coarse_eq_of_mod_eq low).symm)
    · rw [hunts_cons_hunt, ← hunting.fine_eq]
      exact up
    · exact up.trans_le (hunting.rate_lt_of_ne short).1
  · rw [ticked]
    have counted := hunting.counter_add_one
    have room : (controller.counter + 1).toNat ≠ 0x42 := fun expired =>
      running (UInt8.toNat.inj expired)
    have low := hunting.one_le_counter
    have high := hunting.counter_le
    refine ⟨hunting.matched, ?_, ?_, hunting.low_eq, ?_, hunting.fine_le⟩
    · show 1 ≤ (controller.counter + 1).toNat
      omega
    · show (controller.counter + 1).toNat ≤ 0x41
      omega
    · rw [hunts_cons_of_not_restarts rfl (by simp)]
      exact hunting.fine_eq

theorem perform (hunting : Hunting history controller) (operation : Operation) :
    Hunting ((controller.perform operation).1 :: history) (controller.perform operation).2 := by
  cases operation with
  | setMode data => exact hunting.setMode data
  | writeRate data => exact hunting.writeRate data
  | setMapByte index data => exact hunting.setMapByte index data
  | tick => exact hunting.tick

theorem runFrom (hunting : Hunting history controller) (operations : List Operation) :
    Hunting (controller.runFrom history operations).1 (controller.runFrom history operations).2 := by
  induction operations generalizing history controller with
  | nil => exact hunting
  | cons operation rest ih => exact ih (hunting.perform operation)

end Hunting

theorem isActive_iff (controller : RefreshController) :
    controller.isActive = true ↔ controller.mode.toNat.testBit 1 = true := by
  have bit : ∀ mode : UInt8, (mode &&& 0b10 != 0) = mode.toNat.testBit 1 := by decide +kernel
  rw [isActive, bit]

/-- After any operations in any order: the match value is the one of the coarse
bits; the frame counter has neither stopped nor expired; the low nibble is the
one last written, and the high nibble counts the hunt ticks since the hunt last
started over, up to the match value; the next tick completes a frame exactly when
the controller is active and the hunt complete, wraps only when it is inactive,
and neither of its sums leaves the byte. -/
theorem hunt_law (operations : List Operation) :
    let history := (run operations).1
    let controller := (run operations).2
    controller.rateMatch = matchOf controller.rate ∧
    (0x01 ≤ controller.counter ∧ controller.counter ≤ 0x41) ∧
    controller.rate.toNat % 16 = (lastRate history).toNat % 16 ∧
    (controller.rate.toNat / 16 = hunts history ∧
      hunts history ≤ controller.rateMatch.toNat / 16) ∧
    (controller.tick.1 = .frame ↔
      controller.mode.toNat.testBit 1 = true ∧
        hunts history = controller.rateMatch.toNat / 16) ∧
    (controller.isActive = true → controller.tick.1 ≠ .wrap) ∧
    (controller.counter + 1).toNat = controller.counter.toNat + 1 ∧
    (controller.tick.1 = .hunt →
      (controller.rate + 0x10).toNat = controller.rate.toNat + 0x10) := by
  intro history controller
  have hunting : Hunting history controller := Hunting.initial.runFrom operations
  refine ⟨hunting.matched, ⟨hunting.one_le_counter, hunting.counter_le⟩, hunting.low_eq,
    ⟨hunting.fine_eq, hunting.fine_eq ▸ hunting.fine_le⟩, ?_, ?_, hunting.counter_add_one, ?_⟩
  · rw [← isActive_iff, ← hunting.fine_eq_match_iff]
    rcases controller.tick_cases with ⟨matched, active, ticked⟩ | ⟨-, idle, -, ticked⟩ |
        ⟨short, -, ticked⟩ | ⟨neither, -, ticked⟩
    · simp [ticked, matched, active]
    · simp [ticked, idle]
    · simp [ticked, short]
    · rw [ticked]
      exact ⟨nofun, fun both => absurd both.symm neither⟩
  · intro active
    rcases controller.tick_cases with ⟨-, -, ticked⟩ | ⟨-, idle, -, -⟩ |
        ⟨-, -, ticked⟩ | ⟨-, -, ticked⟩
    · simp [ticked]
    · rw [active] at idle
      cases idle
    · simp [ticked]
    · simp [ticked]
  · intro hunted
    rcases controller.tick_cases with ⟨-, -, ticked⟩ | ⟨-, -, -, ticked⟩ |
        ⟨short, -, -⟩ | ⟨-, -, ticked⟩
    · simp [ticked] at hunted
    · simp [ticked] at hunted
    · exact hunting.toNat_rate_step short
    · simp [ticked] at hunted

end Handheld.RefreshController
