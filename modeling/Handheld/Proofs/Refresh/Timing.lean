/-
# When the refresh controller completes a frame

From wherever operations have left a refresh controller, its next ticks are known for
all time: which of them end a round, and how many hunts lie between two that do. An
active controller ends its rounds with frames, an inactive one with wraps.

A controller that was made active after it had reached its match stands at no phase of an
active round. Its count no longer matters, as the next tick completes a frame.
-/

import Mathlib.Algebra.Order.Interval.Finset.Basic
import Mathlib.Algebra.Order.Interval.Finset.SuccPred
import Mathlib.Data.Int.CardIntervalMod
import Mathlib.Data.Nat.SuccPred
import Handheld.Proofs.Refresh.Period

namespace Handheld.RefreshController

variable {controller other : RefreshController} {k phase : Nat}

/-- The controller after `n` ticks with nothing in between. -/
def ticked (controller : RefreshController) : Nat → RefreshController
  | 0 => controller
  | n + 1 => (controller.ticked n).tick.2

/-- How the `n`-th of the following ticks comes out. The next one is the first. -/
def outcome (controller : RefreshController) (n : Nat) : RefreshTick :=
  (controller.ticked (n - 1)).tick.1

theorem ticked_succ (controller : RefreshController) (n : Nat) :
    controller.ticked (n + 1) = controller.tick.2.ticked n := by
  induction n with
  | zero => rfl
  | succ n ih => rw [ticked, ih, ticked]

/-- What the next tick does decides all that follow. -/
theorem outcome_congr (same : controller.tick = other.tick) : controller.outcome = other.outcome := by
  funext n
  unfold outcome
  cases n - 1 with
  | zero => rw [ticked, ticked, same]
  | succ n => rw [ticked_succ, ticked_succ, same]

/-- Something happens at `m` and at `n`, and never in between. -/
def Consecutive (happens : Nat → Prop) (m n : Nat) : Prop :=
  m < n ∧ happens m ∧ happens n ∧ ∀ i, m < i → i < n → ¬ happens i

/-- The number of hunts among the ticks between two others. -/
def huntsBetween (controller : RefreshController) (m n : Nat) : Nat :=
  ((Finset.Ioo m n).filter fun i => controller.outcome i = .hunt).card

theorem roundEnd_ne_hunt (active : Bool) : roundEnd active ≠ .hunt := by
  cases active <;> simp [roundEnd]

theorem roundEnd_ne_counting (active : Bool) : roundEnd active ≠ .counting := by
  cases active <;> simp [roundEnd]

theorem outcomeAt_eq_roundEnd_iff {active : Bool} :
    outcomeAt active k phase = roundEnd active ↔ phase = lastPhase k active := by
  unfold outcomeAt
  split_ifs with last hunted
  · simp [last]
  · simp [last, (roundEnd_ne_hunt active).symm]
  · simp [last, (roundEnd_ne_counting active).symm]

/-- Rounds end in one way only. -/
theorem outcomeAt_ne_roundEnd_not (active : Bool) :
    outcomeAt active k phase ≠ roundEnd !active := by
  unfold outcomeAt
  split_ifs
  · cases active <;> simp [roundEnd]
  · exact (roundEnd_ne_hunt _).symm
  · exact (roundEnd_ne_counting _).symm

/-- Before the end of a round, a hunt is the last tick of a full count. -/
theorem outcomeAt_eq_hunt_iff {active : Bool} (before : phase < lastPhase k active) :
    outcomeAt active k phase = .hunt ↔ phase ≡ 64 [MOD 65] := by
  simp [outcomeAt, before.ne, Nat.ModEq]

/-- A round has `k` hunts. -/
theorem count_lastPhase (k : Nat) (active : Bool) :
    Nat.count (· ≡ 64 [MOD 65]) (lastPhase k active) = k := by
  have whole : lastPhase k active / 65 = k ∧ ¬ 64 % 65 < lastPhase k active % 65 := by
    cases active <;> simp only [lastPhase] <;> omega
  rw [Nat.count_modEq_card _ (by decide), whole.1, if_neg whole.2, Nat.add_zero]

/-- The phases of a round follow each other, and the first one follows the last. -/
theorem phase_succ (last n : Nat) :
    (if n % (last + 1) = last then 0 else n % (last + 1) + 1) = (n + 1) % (last + 1) := by
  have inside : n % (last + 1) < last + 1 := Nat.mod_lt _ (Nat.succ_pos _)
  rw [← Nat.mod_add_mod n (last + 1) 1]
  split_ifs with isLast
  · rw [isLast, Nat.mod_self]
  · exact (Nat.mod_eq_of_lt (by omega)).symm

/-- The last phase comes up when as many ticks have passed as were left of the first round,
and then once in every round. -/
theorem phase_eq_last_iff {last n : Nat} (inside : phase ≤ last) (later : 1 ≤ n) :
    (phase + (n - 1)) % (last + 1) = last ↔
      last + 1 - phase ≤ n ∧ last + 1 ∣ n - (last + 1 - phase) := by
  have ends : (phase + (n - 1)) % (last + 1) = last ↔ last + 1 ∣ phase + n := by
    have next := phase_succ last (phase + (n - 1))
    rw [show phase + (n - 1) + 1 = phase + n by omega] at next
    rw [Nat.dvd_iff_mod_eq_zero, ← next]
    split_ifs with isLast <;> simp [isLast]
  rw [ends]
  by_cases due : last + 1 - phase ≤ n
  · have whole : phase + n = n - (last + 1 - phase) + (last + 1) := by omega
    rw [whole, Nat.dvd_add_self_right]
    exact ⟨fun divides => ⟨due, divides⟩, And.right⟩
  · refine iff_of_false (fun divides => ?_) fun both => due both.1
    have enough := Nat.le_of_dvd (by omega) divides
    omega

namespace Turning

section

variable (turning : controller.Turning k phase)
include turning

/-- The phase moves round by one with every tick. -/
theorem ticked (n : Nat) :
    (controller.ticked n).isActive = controller.isActive ∧
      (controller.ticked n).Turning k
        ((phase + n) % (lastPhase k controller.isActive + 1)) := by
  induction n with
  | zero =>
      rw [Nat.add_zero, Nat.mod_eq_of_lt (Nat.lt_succ_of_le turning.phase_le)]
      exact ⟨rfl, turning⟩
  | succ n ih =>
      obtain ⟨sameActive, turned⟩ := ih
      obtain ⟨-, stillActive, next⟩ := turned.tick
      rw [sameActive, phase_succ] at next
      exact ⟨stillActive.trans sameActive, next⟩

theorem outcome_eq (n : Nat) :
    controller.outcome n = outcomeAt controller.isActive k
      ((phase + (n - 1)) % (lastPhase k controller.isActive + 1)) := by
  obtain ⟨sameActive, turned⟩ := turning.ticked (n - 1)
  rw [outcome, turned.tick.1, sameActive]

/-- The ticks that end a round. -/
theorem outcome_eq_roundEnd_iff {n : Nat} (later : 1 ≤ n) :
    controller.outcome n = roundEnd controller.isActive ↔
      lastPhase k controller.isActive + 1 - phase ≤ n ∧
        lastPhase k controller.isActive + 1 ∣
          n - (lastPhase k controller.isActive + 1 - phase) := by
  rw [turning.outcome_eq, outcomeAt_eq_roundEnd_iff, phase_eq_last_iff turning.phase_le later]

theorem outcome_ne_roundEnd_not (n : Nat) :
    controller.outcome n ≠ roundEnd !controller.isActive := by
  rw [turning.outcome_eq]
  exact outcomeAt_ne_roundEnd_not _

/-- The round that follows the end of another one goes through all phases in order. -/
theorem outcome_add {m : Nat} (later : 1 ≤ m)
    (ends : controller.outcome m = roundEnd controller.isActive) {passed : Nat}
    (before : passed ≤ lastPhase k controller.isActive) :
    controller.outcome (m + 1 + passed) = outcomeAt controller.isActive k passed := by
  rw [turning.outcome_eq, outcomeAt_eq_roundEnd_iff] at ends
  have start : (phase + m) % (lastPhase k controller.isActive + 1) = 0 := by
    have next := phase_succ (lastPhase k controller.isActive) (phase + (m - 1))
    rw [if_pos ends, show phase + (m - 1) + 1 = phase + m by omega] at next
    exact next.symm
  have position : (phase + (m + 1 + passed - 1)) % (lastPhase k controller.isActive + 1) = passed := by
    rw [show phase + (m + 1 + passed - 1) = phase + m + passed by omega, Nat.add_mod, start,
      Nat.zero_add, Nat.mod_mod, Nat.mod_eq_of_lt (Nat.lt_succ_of_le before)]
  rw [turning.outcome_eq, position]

/-- Two ends of a round with none in between are one round apart. -/
theorem eq_add_of_consecutive {m n : Nat} (later : 1 ≤ m)
    (consecutive : Consecutive (controller.outcome · = roundEnd controller.isActive) m n) :
    n = m + 1 + lastPhase k controller.isActive := by
  obtain ⟨less, ends, endsAgain, none⟩ := consecutive
  have endsNext : controller.outcome (m + 1 + lastPhase k controller.isActive) =
      roundEnd controller.isActive := by
    rw [turning.outcome_add later ends le_rfl, outcomeAt_eq_roundEnd_iff]
  have reached : n ≤ m + 1 + lastPhase k controller.isActive := by
    by_contra beyond
    exact none _ (by omega) (Nat.not_le.mp beyond) endsNext
  have passed : n = m + 1 + (n - (m + 1)) := by omega
  rw [passed, turning.outcome_add later ends (by omega), outcomeAt_eq_roundEnd_iff] at endsAgain
  omega

/-- Between two ends of a round lie the `k` hunts of the second one. -/
theorem huntsBetween_eq {m n : Nat} (later : 1 ≤ m)
    (consecutive : Consecutive (controller.outcome · = roundEnd controller.isActive) m n) :
    controller.huntsBetween m n = k := by
  have between : Finset.Ioo m n =
      (Finset.range (lastPhase k controller.isActive)).map (addLeftEmbedding (m + 1)) := by
    rw [turning.eq_add_of_consecutive later consecutive, Finset.range_eq_Ico,
      Finset.map_add_left_Ico, Nat.add_zero, Finset.Ico_add_one_left_eq_Ioo]
  have hunted : ∀ passed ∈ Finset.range (lastPhase k controller.isActive),
      controller.outcome (m + 1 + passed) = .hunt ↔ passed ≡ 64 [MOD 65] := by
    intro passed inside
    have before := Finset.mem_range.mp inside
    rw [turning.outcome_add later consecutive.2.1 before.le, outcomeAt_eq_hunt_iff before]
  calc
    controller.huntsBetween m n =
        ((Finset.range (lastPhase k controller.isActive)).filter fun passed =>
          controller.outcome (m + 1 + passed) = .hunt).card := by
      rw [huntsBetween, between, Finset.filter_map, Finset.card_map]
      rfl
    _ = ((Finset.range (lastPhase k controller.isActive)).filter (· ≡ 64 [MOD 65])).card := by
      rw [Finset.filter_congr hunted]
    _ = k := by
      rw [← Nat.count_eq_card_filter_range, count_lastPhase]

end

end Turning

/-- The number of ticks until the next one that ends a round, by the fine nibble, the
counter and the match value. -/
def firstEnd (f c k : Nat) : (active : Bool) → Nat
  | true => if f = k then 1 else 65 * (k - f) - c + 2
  | false => 66 - c + 65 * (k - f)

namespace Hunting

variable {history : List Event} (hunting : Hunting history controller)
include hunting

theorem match_bounds :
    controller.rateMatch.toNat % 16 = 0 ∧ controller.rateMatch.toNat ≤ 0xB0 := by
  rw [hunting.matched]
  exact matchOf_spec _

theorem complete_iff :
    fine controller.rate = controller.rateMatch ↔
      controller.rate.toNat / 16 = controller.rateMatch.toNat / 16 := by
  rw [hunting.fine_eq_match_iff, hunting.fine_eq]

/-- A controller that is not about to complete a frame stands at the phase that its fine
nibble and its counter give. -/
theorem turning
    (unfinished : ¬ (fine controller.rate = controller.rateMatch ∧ controller.isActive = true)) :
    controller.Turning (controller.rateMatch.toNat / 16)
      (65 * (controller.rate.toNat / 16) + controller.counter.toNat - 1) := by
  have aligned := hunting.match_bounds
  have low := hunting.one_le_counter
  have high := hunting.counter_le
  have below := hunting.fine_le
  refine ⟨by omega, by omega, low, high, by omega, ?_⟩
  cases active : controller.isActive with
  | true =>
      have short := mt hunting.complete_iff.mpr fun complete => unfinished ⟨complete, active⟩
      simp only [lastPhase]
      omega
  | false =>
      simp only [lastPhase]
      omega

/-- A frame that is about to be completed does not depend on the count, which may be taken
for the first one. -/
theorem turning_of_complete (complete : fine controller.rate = controller.rateMatch)
    (active : controller.isActive = true) :
    { controller with counter := counterReset }.Turning (controller.rateMatch.toNat / 16)
      (65 * (controller.rateMatch.toNat / 16)) := by
  have aligned := hunting.match_bounds
  refine ⟨?_, by omega, counterReset_bounds.1, counterReset_bounds.2, ?_, ?_⟩
  · show controller.rateMatch.toNat = _
    omega
  · show 65 * (controller.rate.toNat / 16) + 1 = _
    rw [hunting.complete_iff.mp complete]
  · show _ ≤ lastPhase _ controller.isActive
    rw [active, lastPhase]

/-- Whatever was done to a controller, there is a phase of a round from which its ticks
come out as they do. -/
theorem exists_turning :
    ∃ (twin : RefreshController) (phase : Nat),
      twin.tick = controller.tick ∧ twin.isActive = controller.isActive ∧
      twin.Turning (controller.rateMatch.toNat / 16) phase ∧
      lastPhase (controller.rateMatch.toNat / 16) controller.isActive + 1 - phase =
        firstEnd (controller.rate.toNat / 16) controller.counter.toNat
          (controller.rateMatch.toNat / 16) controller.isActive := by
  by_cases done : fine controller.rate = controller.rateMatch ∧ controller.isActive = true
  · obtain ⟨complete, active⟩ := done
    refine ⟨{ controller with counter := counterReset }, _, ?_, rfl,
      hunting.turning_of_complete complete active, ?_⟩
    · have sameActive : { controller with counter := counterReset }.isActive = true := active
      simp [RefreshController.tick, complete, active, sameActive, RefreshController.restart]
    · rw [active, lastPhase, firstEnd, if_pos (hunting.complete_iff.mp complete)]
      omega
  · have low := hunting.one_le_counter
    have high := hunting.counter_le
    have below := hunting.fine_le
    refine ⟨controller, _, rfl, rfl, hunting.turning done, ?_⟩
    cases active : controller.isActive with
    | true =>
        have short := mt hunting.complete_iff.mpr fun complete => done ⟨complete, active⟩
        rw [lastPhase, firstEnd, if_neg short]
        omega
    | false =>
        rw [lastPhase, firstEnd]
        omega

end Hunting

/-- From any state that operations lead to, with `f` the fine nibble, `c` the counter and
`k` the hunts of a round, the ticks with nothing in between are these. While the controller
is active, its first frame is the one of tick `d`, the next ones follow every `65 * k + 1`
ticks, and there are no wraps. While it is inactive, its first wrap is the one of tick `d`,
the next ones follow every `65 * (k + 1)` ticks, and there are no frames. Either way `k`
hunts lie between two in a row. No difference that is taken here is cut off at zero. -/
theorem refresh_timing (operations : List Operation) :
    let controller := (run operations).2
    let f := (fine controller.rate).toNat / 16
    let c := controller.counter.toNat
    let k := controller.rateMatch.toNat / 16
    (f ≤ k ∧ 1 ≤ c ∧ c ≤ 65) ∧
    (controller.isActive = true →
      let d := if f = k then 1 else 65 * (k - f) - c + 2
      (∀ n, 1 ≤ n → (controller.outcome n = .frame ↔ d ≤ n ∧ 65 * k + 1 ∣ n - d)) ∧
      (∀ n, 1 ≤ n → controller.outcome n ≠ .wrap) ∧
      ∀ m n, 1 ≤ m → Consecutive (controller.outcome · = .frame) m n →
        controller.huntsBetween m n = k) ∧
    (controller.isActive = false →
      let d := 66 - c + 65 * (k - f)
      (∀ n, 1 ≤ n → (controller.outcome n = .wrap ↔ d ≤ n ∧ 65 * (k + 1) ∣ n - d)) ∧
      (∀ n, 1 ≤ n → controller.outcome n ≠ .frame) ∧
      ∀ m n, 1 ≤ m → Consecutive (controller.outcome · = .wrap) m n →
        controller.huntsBetween m n = k) := by
  intro controller f c k
  have hunting : Hunting (run operations).1 controller := Hunting.initial.runFrom operations
  have nibble : f = controller.rate.toNat / 16 := by
    show (fine controller.rate).toNat / 16 = _
    rw [toNat_fine, Nat.mul_div_cancel_left _ (by decide)]
  obtain ⟨twin, phase, sameTick, sameActive, turning, first⟩ := hunting.exists_turning
  have sameOutcome : twin.outcome = controller.outcome := outcome_congr sameTick
  have sameHunts : twin.huntsBetween = controller.huntsBetween := by
    funext m n
    rw [huntsBetween, huntsBetween, sameOutcome]
  have ends (n : Nat) (later : 1 ≤ n) := turning.outcome_eq_roundEnd_iff later
  have never := turning.outcome_ne_roundEnd_not
  have hunts (m n : Nat) (later : 1 ≤ m) := turning.huntsBetween_eq (n := n) later
  rw [sameActive, sameOutcome] at ends never hunts
  rw [sameHunts] at hunts
  rw [← nibble] at first
  refine ⟨⟨nibble ▸ hunting.fine_le, hunting.one_le_counter, hunting.counter_le⟩, ?_, ?_⟩
  · intro active d
    have due : lastPhase k true + 1 - phase = d := by
      rw [← active, first, active]
      rfl
    rw [active] at ends never hunts
    rw [due] at ends
    exact ⟨ends, fun n _ => never n, hunts⟩
  · intro idle d
    have due : lastPhase k false + 1 - phase = d := by
      rw [← idle, first, idle]
      rfl
    rw [idle] at ends never hunts
    rw [due] at ends
    exact ⟨ends, fun n _ => never n, hunts⟩

end Handheld.RefreshController
