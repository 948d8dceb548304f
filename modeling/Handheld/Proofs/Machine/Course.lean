/-
# What decides the course of a machine

A machine remembers the transaction last seen on its bus, and whether its host
has paused it. Neither steers a step: two machines that agree in everything else
take the same steps, report the same, and halt at the same place.
-/

import Handheld.Proofs.Machine.Stages

namespace Handheld.Machine

open Checked

variable {σ : Type}

/-- Everything about a machine but the transaction on its bus and its pause. -/
def course (machine : Machine σ) : σ × Board × Settings × Option UInt16 :=
  (machine.core, machine.board, machine.settings, machine.haltedAt)

variable [Core σ] {first second : Machine σ}

theorem halfCycle_alike (same : first.course = second.course) (level : Bool) :
    Alike (fun a b => a.course = b.course) (first.halfCycle level) (second.halfCycle level) := by
  obtain ⟨core, board, settings, bus, running, halted⟩ := first
  obtain ⟨_, _, _, otherBus, otherRunning, _⟩ := second
  cases same
  refine (Alike.refl board.halfCycle).bind ?_
  rintro ⟨toggled, board⟩ _ rfl
  exact .ok rfl

theorem transfer_alike (same : first.course = second.course) (sampled : Frame) :
    Alike (fun a b => a.1 = b.1 ∧ a.2.course = b.2.course)
      (first.transfer sampled) (second.transfer sampled) := by
  obtain ⟨core, board, settings, bus, running, halted⟩ := first
  obtain ⟨_, _, _, otherBus, otherRunning, _⟩ := second
  obtain ⟨pins, probes⟩ := sampled
  cases same
  unfold transfer
  simp only
  split
  · split
    · exact .ok ⟨rfl, rfl⟩
    · refine (Alike.refl _).bind ?_
      rintro ⟨fetch, board⟩ _ rfl
      exact .ok ⟨rfl, rfl⟩
  · split
    · refine (Alike.refl _).bind ?_
      rintro ⟨store, board⟩ _ rfl
      exact .ok ⟨rfl, rfl⟩
    · exact .ok ⟨rfl, rfl⟩
  · exact .ok ⟨rfl, rfl⟩
  · exact .ok ⟨rfl, rfl⟩

theorem finishStep_alike (same : first.course = second.course) (report : StepReport) :
    Alike (fun a b => a.1 = b.1 ∧ a.2.course = b.2.course)
      (first.finishStep report) (second.finishStep report) := by
  obtain ⟨core, board, settings, bus, running, halted⟩ := first
  obtain ⟨_, _, _, otherBus, otherRunning, _⟩ := second
  cases same
  refine (Alike.refl _).bind ?_
  rintro ⟨boundary, audit⟩ _ rfl
  refine (transfer_alike ?_ _).bind ?_
  · rfl
  · rintro ⟨transfer, after⟩ ⟨_, otherAfter⟩ ⟨sameTransfer, sameCourse⟩
    obtain ⟨core, board, settings, bus, running, halted⟩ := after
    obtain ⟨_, _, _, otherBus, otherRunning, _⟩ := otherAfter
    cases sameTransfer
    cases sameCourse
    exact .ok ⟨rfl, rfl⟩

/-- Machines on the same course take the same step. -/
theorem step_alike (same : first.course = second.course) :
    Alike (fun a b =>
        a.report = b.report ∧ a.overflow = b.overflow ∧ a.machine.course = b.machine.course)
      first.step second.step := by
  cases halted : first.haltedAt with
  | some stackPointer =>
      have otherHalted : second.haltedAt = some stackPointer := by
        rw [← halted]
        exact (congrArg (·.2.2.2) same).symm
      have sameBoard : first.board = second.board := congrArg (·.2.1) same
      rw [step_of_halted halted, step_of_halted otherHalted]
      exact .ok ⟨rfl, by rw [sameBoard], same⟩
  | none =>
      have otherAwake : second.haltedAt = none := by
        rw [← halted]
        exact (congrArg (·.2.2.2) same).symm
      unfold step
      rw [halted, otherAwake]
      refine (halfCycle_alike same true).bind fun high otherHigh sameHigh => ?_
      refine (halfCycle_alike sameHigh false).bind fun low otherLow sameLow => ?_
      obtain ⟨core, board, settings, bus, running, stopped⟩ := low
      obtain ⟨_, _, _, otherBus, otherRunning, _⟩ := otherLow
      cases sameLow
      refine (Alike.refl _).bind ?_
      rintro ⟨report, board⟩ _ rfl
      dsimp only
      split
      · exact .ok ⟨rfl, rfl, rfl⟩
      · refine (finishStep_alike ?_ report).bind ?_
        · rfl
        · rintro ⟨final, after⟩ ⟨_, otherAfter⟩ ⟨sameReport, sameCourse⟩
          cases sameReport
          exact .ok ⟨rfl, rfl, sameCourse⟩

/-- Machines on the same course stay on it, for any number of steps. -/
theorem run_alike (same : first.course = second.course) (n : Nat) :
    Alike (fun a b => a.1 = b.1 ∧ a.2.course = b.2.course) (first.run n) (second.run n) := by
  have noting : Alike
      (fun a b : Unit × Option StackOverflow × Machine σ =>
        a.2.1 = b.2.1 ∧ a.2.2.course = b.2.2.course)
      (first.runNoting (fun _ _ => ()) n ()) (second.runNoting (fun _ _ => ()) n ()) := by
    induction n generalizing first second with
    | zero => exact .ok ⟨rfl, same⟩
    | succ n ih =>
        refine (step_alike same).bind ?_
        rintro ⟨report, overflow, after⟩ ⟨_, _, otherAfter⟩ ⟨-, sameOverflow, sameCourse⟩
        cases sameOverflow
        cases overflow with
        | some overflow => exact .ok ⟨rfl, sameCourse⟩
        | none => exact ih sameCourse
  exact noting.bind fun a b together => .ok together

end Handheld.Machine
