/-
# The schedule of the oscillator

The oscillator keeps no count of its edges. An edge puts the next one a period away
from the timestamp at which it was noticed, so an oscillator that is asked too late
stays late. Asked at every timestamp in turn it is never late: its edges are the
positive multiples of the period, and its level is the parity of their number.

The schedule ends where timestamps do. At the last multiple of the period that is a
timestamp there is no room for the edge after it, and asking there is a fault.
-/

import Mathlib.Algebra.Order.Round
import Mathlib.Algebra.Ring.Parity
import Mathlib.Data.Rat.Floor
import Handheld.Proofs.Board.Effects

namespace Handheld.Oscillator

open Checked

/-- Adding half of the divisor before a division rounds to the nearest integer, halves up.
An odd divisor has no half, and none is missed: no quotient by it is a half. -/
theorem div_add_half_eq_round {dividend divisor : Nat} (positive : 0 < divisor) :
    (((dividend + divisor / 2) / divisor : Nat) : ℤ) = round ((dividend : ℚ) / divisor) := by
  have nonzero : (divisor : ℚ) ≠ 0 := Nat.cast_ne_zero.mpr positive.ne'
  have doubled : (dividend + divisor / 2) / divisor = (2 * dividend + divisor) / (2 * divisor) := by
    rw [← Nat.div_div_eq_div_mul, Nat.mul_add_div Nat.two_pos]
  have shifted : (dividend : ℚ) / divisor + 1 / 2 =
      ((2 * dividend + divisor : Nat) : ℚ) / ((2 * divisor : Nat) : ℚ) := by
    push_cast
    field_simp
  rw [round_eq, shifted, Rat.floor_natCast_div_natCast, doubled, Int.natCast_div]

/-- The period is the ratio of the clocks, rounded, and at least one. -/
theorem toNat_periodOf (coreHz realTimeHz : UInt32) :
    ((periodOf coreHz realTimeHz).toNat : ℤ) =
      max 1 (round ((coreHz.toNat : ℚ) / (max 1 realTimeHz.toNat : Nat))) := by
  have fast := coreHz.toNat_lt
  have slow := realTimeHz.toNat_lt
  have ratio : (coreHz.toNat + max 1 realTimeHz.toNat / 2) / max 1 realTimeHz.toNat ≤
      coreHz.toNat + max 1 realTimeHz.toNat / 2 := Nat.div_le_self _ _
  have divides : 0 < max 1 realTimeHz.toNat := Nat.lt_of_lt_of_le Nat.one_pos (le_max_left _ _)
  have fits : max ((coreHz.toNat + max 1 realTimeHz.toNat / 2) / max 1 realTimeHz.toNat) 1 <
      UInt64.size := by
    simp only [UInt64.size]
    omega
  rw [periodOf, max_comm realTimeHz.toNat, UInt64.toNat_ofNat_of_lt' fits, max_comm, Nat.cast_max,
    div_add_half_eq_round divides, Nat.cast_one]

theorem periodOf_pos (coreHz realTimeHz : UInt32) : 0 < (periodOf coreHz realTimeHz).toNat := by
  have atLeast := toNat_periodOf coreHz realTimeHz
  have := le_max_left 1 (round ((coreHz.toNat : ℚ) / (max 1 realTimeHz.toNat : Nat)))
  omega

/-- What the oscillator answers at a timestamp, if it was asked at all earlier ones. -/
def answerAt (period timestamp : Nat) : Option Bool :=
  if 0 < timestamp ∧ period ∣ timestamp then some (decide (Odd (timestamp / period))) else none

/-- The number of edges before a timestamp. -/
def edgesBefore (period timestamp : Nat) : Nat :=
  (timestamp - 1) / period

theorem edgesBefore_zero (period : Nat) : edgesBefore period 0 = 0 := by
  simp [edgesBefore]

theorem edgesBefore_succ (period timestamp : Nat) :
    edgesBefore period (timestamp + 1) =
      edgesBefore period timestamp + if 0 < timestamp ∧ period ∣ timestamp then 1 else 0 := by
  cases timestamp with
  | zero => simp [edgesBefore]
  | succ timestamp => simp [edgesBefore, Nat.succ_div]

/-- The edges are the timestamps at which there is an answer. -/
theorem edgesBefore_succ_eq (period timestamp : Nat) :
    edgesBefore period (timestamp + 1) =
      edgesBefore period timestamp + (answerAt period timestamp).isSome.toNat := by
  rw [edgesBefore_succ, answerAt]
  split <;> rfl

variable {oscillator changed : Oscillator} {period time : Nat} {timestamp : UInt64}
  {answer : Option Bool}

/-- An answer is the new level, and no answer leaves the oscillator as it was. -/
theorem due_cases (asked : oscillator.due timestamp = .ok (answer, changed)) :
    answer = none ∧ changed = oscillator ∨
      answer = some (!oscillator.level) ∧ changed.level = !oscillator.level := by
  rw [due] at asked
  split at asked
  · cases asked
    exact .inl ⟨rfl, rfl⟩
  · obtain ⟨next, -, same⟩ := bind_eq_ok.mp asked
    cases same
    exact .inr ⟨rfl, rfl⟩

/-- The oscillator has been asked at every timestamp before `time`, and is not late. -/
structure Scheduled (oscillator : Oscillator) (period time : Nat) : Prop where
  period_eq : oscillator.period.toNat = period
  positive : 0 < period
  next_eq : oscillator.next.toNat = (edgesBefore period time + 1) * period
  level_eq : oscillator.level = decide (Odd (edgesBefore period time))

theorem scheduled_start (coreHz realTimeHz : UInt32) :
    (start coreHz realTimeHz).Scheduled (periodOf coreHz realTimeHz).toNat 0 where
  period_eq := rfl
  positive := periodOf_pos coreHz realTimeHz
  next_eq := by rw [edgesBefore_zero, Nat.zero_add, Nat.one_mul]; rfl
  level_eq := by rw [edgesBefore_zero]; rfl

/-- The next edge has been reached exactly at a positive multiple of the period. -/
theorem Scheduled.next_le_iff (scheduled : oscillator.Scheduled period timestamp.toNat) :
    ¬ timestamp < oscillator.next ↔ 0 < timestamp.toNat ∧ period ∣ timestamp.toNat := by
  have reached := edgesBefore_succ period timestamp.toNat
  rw [edgesBefore, Nat.add_sub_cancel] at reached
  rw [UInt64.lt_iff_toNat_lt, scheduled.next_eq, ← Nat.div_lt_iff_lt_mul scheduled.positive, reached]
  by_cases edge : 0 < timestamp.toNat ∧ period ∣ timestamp.toNat
  · simp [edge]
  · simp [edge]

/-- An answer is that of the schedule, and leaves the oscillator on schedule. -/
theorem Scheduled.of_due (scheduled : oscillator.Scheduled period timestamp.toNat)
    (asked : oscillator.due timestamp = .ok (answer, changed)) :
    answer = answerAt period timestamp.toNat ∧
      changed.Scheduled period (timestamp.toNat + 1) := by
  have counted := edgesBefore_succ period timestamp.toNat
  by_cases edge : 0 < timestamp.toNat ∧ period ∣ timestamp.toNat
  · rw [if_pos edge] at counted
    have quotient : timestamp.toNat / period = edgesBefore period timestamp.toNat + 1 := counted
    have toggled : (!oscillator.level) = decide (Odd (timestamp.toNat / period)) := by
      rw [scheduled.level_eq, quotient, ← decide_not, decide_eq_decide]
      exact Nat.odd_add_one.symm
    rw [due, if_neg (scheduled.next_le_iff.mpr edge)] at asked
    obtain ⟨next, added, same⟩ := bind_eq_ok.mp asked
    obtain ⟨rfl, fits⟩ := of_add64_eq_ok added
    cases same
    refine ⟨by rw [answerAt, if_pos edge, toggled], scheduled.period_eq, scheduled.positive, ?_, ?_⟩
    · show (timestamp + oscillator.period).toNat = _
      rw [fits, scheduled.period_eq, counted, ← quotient, Nat.add_one_mul,
        Nat.div_mul_cancel edge.2]
    · show (!oscillator.level) = _
      rw [toggled, quotient, counted]
  · rw [if_neg edge, Nat.add_zero] at counted
    have early : timestamp < oscillator.next :=
      not_not.mp (scheduled.next_le_iff.not.mpr edge)
    rw [due, if_pos early] at asked
    cases asked
    refine ⟨by rw [answerAt, if_neg edge], scheduled.period_eq, scheduled.positive, ?_, ?_⟩
    · rw [counted]
      exact scheduled.next_eq
    · rw [counted]
      exact scheduled.level_eq

/-- Asking succeeds wherever the edge after this one has a timestamp. -/
theorem Scheduled.due_succeeds (scheduled : oscillator.Scheduled period timestamp.toNat)
    (room : period ∣ timestamp.toNat → timestamp.toNat + period < 2 ^ 64) :
    Succeeds (oscillator.due timestamp) := by
  rw [due]
  by_cases early : timestamp < oscillator.next
  · rw [if_pos early]
    exact .ok _
  · have fits : timestamp.toNat + oscillator.period.toNat < UInt64.size := by
      rw [scheduled.period_eq]
      exact room (scheduled.next_le_iff.mp early).2
    rw [if_neg early, add64_eq_ok fits]
    exact .ok _

/-- Asking at an edge after which there is no room for another is a fault. -/
theorem Scheduled.due_eq_error (scheduled : oscillator.Scheduled period timestamp.toNat)
    (edge : 0 < timestamp.toNat ∧ period ∣ timestamp.toNat)
    (full : 2 ^ 64 ≤ timestamp.toNat + period) :
    oscillator.due timestamp = .error .overflow := by
  have lacking : UInt64.size ≤ timestamp.toNat + oscillator.period.toNat := by
    rw [scheduled.period_eq]
    exact full
  rw [due, if_neg (scheduled.next_le_iff.mpr edge), add64_eq_error lacking]
  rfl

/-- Ask at a timestamp and write down the answer behind the earlier ones. -/
def ask (timestamp : Nat) : List (Option Bool) × Oscillator →
    Checked (List (Option Bool) × Oscillator)
  | (answers, oscillator) => do
    let (answer, oscillator) ← oscillator.due (UInt64.ofNat timestamp)
    .ok (answers ++ [answer], oscillator)

/-- Ask at the timestamps 0, 1, up to `n - 1` in turn. -/
def sweep (oscillator : Oscillator) (n : Nat) : Checked (List (Option Bool) × Oscillator) :=
  rounds ask ([], oscillator) n

/-- The last multiple of the period that is a timestamp. -/
def lastMultiple (period : Nat) : Nat :=
  (2 ^ 64 - 1) / period * period

theorem lastMultiple_lt (period : Nat) : lastMultiple period < 2 ^ 64 :=
  Nat.lt_of_le_of_lt (Nat.div_mul_le_self _ _) (by decide)

/-- Before the last multiple, each multiple has one after it. -/
theorem add_lt_of_lt_lastMultiple (divides : period ∣ time) (early : time < lastMultiple period) :
    time + period < 2 ^ 64 := by
  obtain ⟨factor, rfl⟩ := divides
  have less : factor < (2 ^ 64 - 1) / period := by
    rw [lastMultiple, Nat.mul_comm] at early
    exact Nat.lt_of_mul_lt_mul_right early
  have next : period * factor + period ≤ lastMultiple period := by
    rw [lastMultiple, Nat.mul_comm, ← Nat.add_one_mul]
    exact Nat.mul_le_mul_right period less
  exact Nat.lt_of_le_of_lt next (lastMultiple_lt period)

/-- Up to the last multiple, a sweep gets the answers of the schedule. -/
theorem Scheduled.sweep (scheduled : oscillator.Scheduled period 0) {n : Nat}
    (early : n ≤ lastMultiple period) :
    ∃ changed, oscillator.sweep n = .ok ((List.range n).map (answerAt period), changed) ∧
      changed.Scheduled period n := by
  induction n with
  | zero => exact ⟨oscillator, rfl, scheduled⟩
  | succ n ih =>
      obtain ⟨reached, swept, onTime⟩ := ih (Nat.le_of_succ_le early)
      have exactly : (UInt64.ofNat n).toNat = n :=
        UInt64.toNat_ofNat_of_lt' (Nat.lt_of_lt_of_le early (lastMultiple_lt period).le)
      rw [← exactly] at onTime
      have room : period ∣ (UInt64.ofNat n).toNat → (UInt64.ofNat n).toNat + period < 2 ^ 64 := by
        rw [exactly]
        exact fun divides => add_lt_of_lt_lastMultiple divides early
      obtain ⟨⟨answer, changed⟩, asked⟩ := onTime.due_succeeds room
      obtain ⟨rfl, next⟩ := onTime.of_due asked
      rw [exactly] at asked next
      refine ⟨changed, ?_, next⟩
      rw [Oscillator.sweep] at swept
      rw [Oscillator.sweep, rounds, swept, ok_bind, ask, asked, ok_bind, List.range_succ,
        List.map_append, List.map_singleton]

/-- A sweep ends with a fault at the last multiple. -/
theorem Scheduled.sweep_eq_error (scheduled : oscillator.Scheduled period 0)
    (small : period < 2 ^ 64) :
    oscillator.sweep (lastMultiple period + 1) = .error .overflow := by
  obtain ⟨reached, swept, onTime⟩ := scheduled.sweep le_rfl
  have exactly : (UInt64.ofNat (lastMultiple period)).toNat = lastMultiple period :=
    UInt64.toNat_ofNat_of_lt' (lastMultiple_lt period)
  rw [← exactly] at onTime
  have some : 0 < (2 ^ 64 - 1) / period := Nat.div_pos (by omega) scheduled.positive
  have edge : 0 < lastMultiple period ∧ period ∣ lastMultiple period :=
    ⟨Nat.mul_pos some scheduled.positive, Nat.dvd_mul_left _ _⟩
  have full : 2 ^ 64 ≤ lastMultiple period + period := by
    have := Nat.lt_div_mul_add (a := 2 ^ 64 - 1) scheduled.positive
    rw [lastMultiple]
    omega
  have refused := onTime.due_eq_error (by rw [exactly]; exact edge) (by rw [exactly]; exact full)
  rw [Oscillator.sweep] at swept
  rw [Oscillator.sweep, rounds, swept, ok_bind, ask, refused]
  rfl

end Handheld.Oscillator
