/-
# Answers side by side

Two hosts do the same with two machines that are linked. The machines give the same
answers and stay linked, provided that the relation between their boards survives what
hosts do to boards. As with steps, what has to be shown depends on the relation only
through the operations of the board, and the actions are followed here once.

The answers compare as the steps do: where both machines get through, or with the same
faults.
-/

import Mathlib.Data.List.Forall2
import Handheld.Proofs.Machine.Answers
import Handheld.Proofs.Machine.Pairs

namespace Handheld

open Checked

/-- Boards that stay related through everything a host does with them, and tell the host
the same. -/
structure Board.Tended (comparison : Comparison Fault) (boards : Board → Board → Prop)
    (settings other : Settings) : Prop where
  forwardKeys : settings.forwardKeys = other.forwardKeys
  stepsPerFrame : settings.stepsPerFrame = other.stepsPerFrame
  registers : ∀ {a b}, boards a b → a.registers = b.registers
  frames : ∀ {a b}, boards a b → a.screen.frames = b.screen.frames
  redrawRequested : ∀ {a b}, boards a b → a.screen.redrawRequested = b.screen.redrawRequested
  view : ∀ {a b}, boards a b → ∀ address, a.view address = b.view address
  coverage : ∀ {a b}, boards a b → comparison.Holds (fun _ _ => True) a.coverage b.coverage
  withBios : ∀ {a b image bios}, boards a b → Rom.bios image = .ok bios →
    boards { a with bios } { b with bios }
  withCartridge : ∀ {a b image cartridge}, boards a b → Rom.cartridge image = .ok cartridge →
    boards { a with cartridge } { b with cartridge }
  setTable : ∀ {a b}, boards a b → ∀ table, boards (a.setTable table) (b.setTable table)
  setKeys : ∀ {a b}, boards a b → ∀ keys, boards (a.setKeys keys) (b.setKeys keys)
  takeRedraw : ∀ {a b}, boards a b →
    boards { a with screen := a.screen.takeRedraw.2 } { b with screen := b.screen.takeRedraw.2 }
  writeRegister : ∀ {a b}, boards a b → ∀ offset data,
    comparison.Holds (fun x y => x.1 = y.1 ∧ boards x.2 y.2) (a.writeRegister offset data)
      (b.writeRegister offset data)
  raise : ∀ {a b}, boards a b → ∀ offset mask,
    comparison.Holds
      (fun x y => x.1 = y.1 ∧ boards { a with registers := x.2 } { b with registers := y.2 })
      (a.registers.raise offset mask) (b.registers.raise offset mask)
  powerOn : ∀ {a b}, boards a b → boards (a.powerOn settings) (b.powerOn other)

namespace Machine

/-- All that has to be shown of a relation between machines, so that it survives steps and
hosts. -/
structure Simulation {σ : Type} [Core σ] (comparison : Comparison Fault)
    (frames : Frame → Frame → Prop) (cores : σ → σ → Prop) (boards : Nat → Board → Board → Prop)
    (buses : Transaction → Transaction → Prop) (settings other : Settings) : Prop where
  coresPaired : Core.Pairing frames cores
  sameCore : ∀ core, cores core core
  sameBus : ∀ bus, buses bus bus
  boardsSimulated : Board.Simulation comparison frames boards settings other
  boardsTended : Board.Tended comparison (boards 0) settings other
  transfers : Transfers comparison frames cores boards buses settings other

/-- The machines are linked between two steps, and both or neither are paused. -/
structure Together {σ : Type} (cores : σ → σ → Prop) (boards : Board → Board → Prop)
    (buses : Transaction → Transaction → Prop) (settings other : Settings)
    (first second : Machine σ) : Prop extends
    Linked cores boards buses settings other first second where
  running : first.running = second.running

variable {σ : Type} [Core σ] {comparison : Comparison Fault} {frames : Frame → Frame → Prop}
  {cores : σ → σ → Prop} {boards : Nat → Board → Board → Prop}
  {buses : Transaction → Transaction → Prop} {settings other : Settings}
  {first second : Machine σ}

namespace Simulation

variable (simulation : Simulation comparison frames cores boards buses settings other)
include simulation

theorem forwardKeys (together : Together cores (boards 0) buses settings other first second) :
    Together cores (boards 0) buses settings other first.forwardKeys second.forwardKeys := by
  have wired : first.settings.forwardKeys = second.settings.forwardKeys := by
    rw [together.settings, together.other, simulation.boardsTended.forwardKeys]
  unfold Machine.forwardKeys
  rw [← wired, ← simulation.boardsTended.registers together.board]
  split
  · exact { together with core := simulation.coresPaired.setKeys together.core _ }
  · exact together

theorem holdReset (together : Together cores (boards 0) buses settings other first second) :
    Together cores (boards 0) buses settings other first.holdReset second.holdReset := by
  have pairing := simulation.coresPaired
  let held (core : σ) :=
    Core.setRealTimeClock false (Core.setClock false (Core.setReset true core))
  have driven : Together cores (boards 0) buses settings other
      { first with core := held first.core } { second with core := held second.core } :=
    { together with
      core := pairing.setRealTimeClock (pairing.setClock (pairing.setReset together.core true) false)
        false }
  have wired := simulation.forwardKeys driven
  exact { wired with core := pairing.settle wired.core }

theorem reset (together : Together cores (boards 0) buses settings other first second) :
    Together cores (boards 0) buses settings other first.reset second.reset := by
  apply simulation.holdReset
  refine { together with board := ?_, bus := simulation.sameBus _, haltedAt := rfl }
  dsimp only
  rw [together.settings, together.other]
  exact simulation.boardsTended.powerOn together.board

/-- Machines with related cores and boards are together at power-on. -/
theorem start {core otherCore : σ} (coresPaired : cores core otherCore)
    (boardsPaired : boards 0 (.initial settings) (.initial other)) :
    Together cores (boards 0) buses settings other (start core settings)
      (start otherCore other) :=
  simulation.holdReset ⟨⟨⟨coresPaired, boardsPaired, rfl, rfl, rfl⟩, simulation.sameBus _⟩, rfl⟩

theorem step (together : Together cores (boards 0) buses settings other first second) :
    comparison.Holds (fun x y => x.overflow = y.overflow ∧
        Together cores (boards 0) buses settings other x.machine y.machine)
      first.step second.step := by
  have compared := comparison.traced (step_linked simulation.coresPaired simulation.boardsSimulated
    simulation.transfers together.toLinked)
  refine comparison.imp compared ?_
  rintro result otherResult ⟨⟨sameOverflow, linked⟩, stepped, otherStepped⟩
  refine ⟨sameOverflow, { linked with running := ?_ }⟩
  rw [(flags_of_step stepped).2, (flags_of_step otherStepped).2, together.running]

theorem run (together : Together cores (boards 0) buses settings other first second) (n : Nat) :
    comparison.Holds (fun x y => x.1 = y.1 ∧
        Together cores (boards 0) buses settings other x.2 y.2)
      (first.run n) (second.run n) := by
  have compared := comparison.traced (run_linked simulation.coresPaired simulation.boardsSimulated
    simulation.transfers together.toLinked n)
  refine comparison.imp compared ?_
  rintro ⟨overflow, after⟩ ⟨otherOverflow, otherAfter⟩ ⟨⟨sameOverflow, linked⟩, ran, otherRan⟩
  refine ⟨sameOverflow, { linked with running := ?_ }⟩
  rw [(flags_of_run ran).2, (flags_of_run otherRan).2, together.running]

theorem runFrame (together : Together cores (boards 0) buses settings other first second) :
    comparison.Holds (fun x y => x.1 = y.1 ∧
        Together cores (boards 0) buses settings other x.2 y.2)
      first.runFrame second.runFrame := by
  have budget : first.frameBudget = second.frameBudget := by
    rw [frameBudget, frameBudget, together.running, together.settings, together.other,
      simulation.boardsTended.stepsPerFrame]
  rw [runFrame_eq, runFrame_eq, ← budget]
  apply comparison.map (simulation.run together _)
  rintro ⟨overflow, after⟩ ⟨_, otherAfter⟩ ⟨rfl, afterwards⟩
  refine ⟨?_, afterwards⟩
  dsimp only
  rw [simulation.boardsTended.frames together.board, simulation.boardsTended.frames afterwards.board]

omit [Core σ] simulation in
/-- An image is put into both sockets or refused by both. -/
theorem answerLoad (together : Together cores (boards 0) buses settings other first second)
    (made : Except Error Rom) (put : Rom → Board → Board)
    (kept : ∀ rom, made = .ok rom → boards 0 (put rom first.board) (put rom second.board)) :
    let answered := first.answerLoad
      (made >>= fun rom => .ok { first with board := put rom first.board })
    let otherAnswered := second.answerLoad
      (made >>= fun rom => .ok { second with board := put rom second.board })
    answered.1 = otherAnswered.1 ∧
      Together cores (boards 0) buses settings other answered.2 otherAnswered.2 := by
  cases made with
  | error refusal => exact ⟨rfl, together⟩
  | ok rom => exact ⟨rfl, { together with board := kept rom rfl }⟩

/-- Machines that are together give the same answer to an action, and stay together. -/
theorem respond (together : Together cores (boards 0) buses settings other first second)
    (action : Action σ) :
    comparison.Holds (fun x y => x.1 = y.1 ∧
        Together cores (boards 0) buses settings other x.2 y.2)
      (first.respond action) (second.respond action) := by
  have tended := simulation.boardsTended
  cases action with
  | loadBios image =>
      exact comparison.ok (answerLoad together (Rom.bios image)
        (fun bios board => { board with bios }) fun _ made => tended.withBios together.board made)
  | loadCartridge image =>
      exact comparison.ok (answerLoad together (Rom.cartridge image)
        (fun cartridge board => { board with cartridge })
        fun _ made => tended.withCartridge together.board made)
  | setTable table =>
      exact comparison.ok ⟨rfl, { together with board := tended.setTable together.board table }⟩
  | setKeys keys =>
      refine comparison.ok ⟨rfl, simulation.forwardKeys ?_⟩
      exact { together with board := tended.setKeys together.board keys }
  | setRunning running => exact comparison.ok ⟨rfl, { together with running := rfl }⟩
  | pokeRegister offset data =>
      have poked : comparison.Holds (fun x y => x.1 = y.1 ∧
          Together cores (boards 0) buses settings other x.2 y.2)
          (first.pokeRegister offset data) (second.pokeRegister offset data) := by
        apply comparison.bind (tended.writeRegister together.board offset data)
        rintro ⟨write, board⟩ ⟨otherWrite, otherBoard⟩ ⟨sameWrite, boardsAfter⟩
        exact comparison.ok ⟨sameWrite, { together with board := boardsAfter }⟩
      apply comparison.map poked
      rintro ⟨write, after⟩ ⟨otherWrite, otherAfter⟩ ⟨sameWrite, afterwards⟩
      exact ⟨congrArg Answer.written sameWrite, afterwards⟩
  | peekRegister offset =>
      rw [Machine.respond, Machine.respond, ← tended.registers together.board]
      apply comparison.map_same
      intro data
      exact ⟨rfl, together⟩
  | raise offset mask =>
      have raised : comparison.Holds (fun x y => x.1 = y.1 ∧
          Together cores (boards 0) buses settings other x.2 y.2)
          (first.raise offset mask) (second.raise offset mask) := by
        apply comparison.bind (tended.raise together.board offset mask)
        rintro ⟨raised, registers⟩ ⟨otherRaised, otherRegisters⟩ ⟨sameRaised, boardsAfter⟩
        exact comparison.ok ⟨sameRaised, { together with board := boardsAfter }⟩
      apply comparison.map raised
      rintro ⟨raised, after⟩ ⟨otherRaised, otherAfter⟩ ⟨sameRaised, afterwards⟩
      exact ⟨congrArg Answer.raised sameRaised, afterwards⟩
  | view address =>
      rw [Machine.respond, Machine.respond, tended.view together.board]
      apply comparison.map_same
      intro data
      exact ⟨rfl, together⟩
  | coverage =>
      apply comparison.map (tended.coverage together.board)
      intro drawn otherDrawn _
      exact ⟨rfl, together⟩
  | takeRedraw =>
      refine comparison.ok ⟨?_, { together with board := tended.takeRedraw together.board }⟩
      exact congrArg Answer.redraw (tended.redrawRequested together.board)
  | exchangeCore core =>
      exact comparison.ok ⟨rfl, { together with core := simulation.sameCore core }⟩
  | step =>
      apply comparison.map (simulation.step together)
      rintro result otherResult ⟨sameOverflow, afterwards⟩
      exact ⟨congrArg Answer.ran sameOverflow, afterwards⟩
  | run budget =>
      apply comparison.map (simulation.run together budget)
      rintro ⟨overflow, after⟩ ⟨otherOverflow, otherAfter⟩ ⟨sameOverflow, afterwards⟩
      exact ⟨congrArg Answer.ran sameOverflow, afterwards⟩
  | runFrame =>
      apply comparison.map (simulation.runFrame together)
      rintro ⟨shown, after⟩ ⟨otherShown, otherAfter⟩ ⟨sameShown, afterwards⟩
      exact ⟨congrArg Answer.framed sameShown, afterwards⟩
  | reset => exact comparison.ok ⟨rfl, simulation.reset together⟩

end Simulation

/-- What holds of answers to related inputs holds of the answers to related rows of
inputs. -/
theorem respondAll_together {boards : Board → Board → Prop} {inputs : Action σ → Action σ → Prop}
    (each : ∀ {first second : Machine σ} {action otherAction : Action σ},
      Together cores boards buses settings other first second → inputs action otherAction →
        comparison.Holds (fun x y => x.1 = y.1 ∧
            Together cores boards buses settings other x.2 y.2)
          (first.respond action) (second.respond otherAction))
    {actions otherActions : List (Action σ)} (related : List.Forall₂ inputs actions otherActions)
    (together : Together cores boards buses settings other first second) :
    comparison.Holds (fun x y => x.1 = y.1 ∧
        Together cores boards buses settings other x.2 y.2)
      (first.respondAll actions) (second.respondAll otherActions) := by
  induction related generalizing first second with
  | nil => exact comparison.ok ⟨rfl, together⟩
  | cons input _ ih =>
      apply comparison.bind (each together input)
      rintro ⟨answer, next⟩ ⟨_, otherNext⟩ ⟨rfl, nextTogether⟩
      apply comparison.bind (ih nextTogether)
      rintro ⟨answers, after⟩ ⟨_, otherAfter⟩ ⟨rfl, afterwards⟩
      exact comparison.ok ⟨rfl, afterwards⟩

theorem Simulation.respondAll
    (simulation : Simulation comparison frames cores boards buses settings other)
    (actions : List (Action σ))
    (together : Together cores (boards 0) buses settings other first second) :
    comparison.Holds (fun x y => x.1 = y.1 ∧
        Together cores (boards 0) buses settings other x.2 y.2)
      (first.respondAll actions) (second.respondAll actions) := by
  have same : List.Forall₂ Eq actions actions := List.forall₂_refl actions
  apply respondAll_together _ same together
  rintro first second action _ together rfl
  exact simulation.respond together action

end Machine

end Handheld
