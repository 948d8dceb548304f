/-
# What hosts do

A host loads images and tables, presses keys, writes and reads registers, looks
at memory and coverage, and lets its machine step. Each of these is an action,
which leaves a machine unless it runs into a fault. Restoring a snapshot is not
among them, because the bytes of a snapshot come from another machine.

An action ages a machine by one, and a run by the steps it takes. No action runs
into a fault while the machine is young.
-/

import Handheld.Proofs.Machine.Progress

namespace Handheld.Machine

open Checked

variable {σ : Type}

/-- Something a host does with its machine. -/
inductive Action (σ : Type)
  | loadBios (image : Array UInt8)
  | loadCartridge (image : Array UInt8)
  | setTable (table : CycleTable)
  | setKeys (keys : Keys)
  | setRunning (running : Bool)
  | pokeRegister (offset data : UInt8)
  | peekRegister (offset : UInt8)
  | raise (offset mask : UInt8)
  | view (address : UInt32)
  | coverage
  | takeRedraw
  | exchangeCore (core : σ)
  | step
  | run (budget : Nat)
  | runFrame
  | reset

/-- What the host hands over fits its memory. -/
def Action.Fits : Action σ → Prop
  | .loadBios image => image.size < hostLimit
  | .setTable table => table.entries.size < hostLimit
  | _ => True

/-- What a machine becomes by an operation that may be refused. A refusal changes
nothing. -/
def accept (machine : Machine σ) : Except Error (Machine σ) → Machine σ
  | .ok after => after
  | .error _ => machine

variable [Core σ]

/-- Carry out an action. What the host learns from it is left out. -/
def perform (machine : Machine σ) : Action σ → Checked (Machine σ)
  | .loadBios image => .ok (machine.accept (machine.loadBios image))
  | .loadCartridge image => .ok (machine.accept (machine.loadCartridge image))
  | .setTable table => .ok (machine.setTable table)
  | .setKeys keys => .ok (machine.setKeys keys)
  | .setRunning running => .ok (machine.setRunning running)
  | .pokeRegister offset data => (machine.pokeRegister offset data).map Prod.snd
  | .peekRegister offset => (machine.board.registers.read offset).map fun _ => machine
  | .raise offset mask => (machine.raise offset mask).map Prod.snd
  | .view address => (machine.board.view address).map fun _ => machine
  | .coverage => machine.board.coverage.map fun _ => machine
  | .takeRedraw => .ok machine.takeRedraw.2
  | .exchangeCore core => .ok { machine with core }
  | .step => machine.step.map Step.machine
  | .run budget => (machine.run budget).map Prod.snd
  | .runFrame => machine.runFrame.map Prod.snd
  | .reset => .ok machine.reset

/-- Carry out actions, the first one first. -/
def performAll (machine : Machine σ) (actions : List (Action σ)) : Checked (Machine σ) :=
  actions.foldlM perform machine

/-- By how much an action ages a machine: a run counts by its steps. -/
def cost (machine : Machine σ) : Action σ → Nat
  | .run budget => machine.stepsTaken budget
  | .runFrame => machine.stepsTaken machine.frameBudget
  | _ => 1

/-- The number of steps that an action takes. -/
def pace (machine : Machine σ) : Action σ → Nat
  | .step => 1
  | .run budget => machine.stepsTaken budget
  | .runFrame => machine.stepsTaken machine.frameBudget
  | _ => 0

theorem pace_le_cost (machine : Machine σ) (action : Action σ) :
    machine.pace action ≤ machine.cost action := by
  cases action with
  | step | run | runFrame => exact le_rfl
  | _ => exact Nat.zero_le _

variable {machine : Machine σ} {bound age : Nat}

/-- A register write by the host is a move that leaves the books and the clock alone. -/
theorem pokeRegister_ready (ready : machine.board.Ready 1) (offset data : UInt8) :
    ∃ write board, machine.board.writeRegister offset data = .ok (write, board) ∧
      machine.perform (.pokeRegister offset data) = .ok { machine with board } ∧
      board.audit = machine.board.audit ∧ board.ticks = machine.board.ticks := by
  obtain ⟨⟨write, board⟩, written⟩ := ready.writeRegister_succeeds offset data
  refine ⟨write, board, written, ?_, ?_⟩
  · rw [perform, pokeRegister, written]
    rfl
  · obtain ⟨registers, incidents, -, -, rfl⟩ := Board.of_writeRegister written
    exact ⟨rfl, rfl⟩

/-- A machine with stamina carries out every action. -/
theorem perform_stamina {Holds : Nat → Nat → Board → Prop} (stamina : Stamina σ Holds)
    {actions steps : Nat} {action : Action σ} (fits : action.Fits)
    (held : Holds (actions + machine.cost action) (steps + machine.pace action) machine.board) :
    ∃ after, machine.perform action = .ok after ∧ Holds actions steps after.board := by
  have still : Holds actions steps machine.board :=
    stamina.mono held (Nat.le_add_right _ _) (Nat.le_add_right _ _)
  cases action with
  | loadBios image =>
      refine ⟨_, rfl, ?_⟩
      cases loaded : machine.loadBios image with
      | error refusal => exact still
      | ok after =>
          obtain ⟨bios, made, same⟩ := bind_eq_ok.mp loaded
          cases same
          exact stamina.bios still (Rom.filled_of_bios fits made)
  | loadCartridge image =>
      refine ⟨_, rfl, ?_⟩
      cases loaded : machine.loadCartridge image with
      | error refusal => exact still
      | ok after =>
          obtain ⟨cartridge, made, same⟩ := bind_eq_ok.mp loaded
          cases same
          exact stamina.cartridge still (Rom.filled_of_cartridge made)
  | setTable table => exact ⟨_, rfl, stamina.setTable still fits⟩
  | setKeys keys =>
      refine ⟨_, rfl, ?_⟩
      rw [board_setKeys]
      exact stamina.move held (.setKeys keys _) rfl rfl
  | setRunning running => exact ⟨_, rfl, still⟩
  | pokeRegister offset data =>
      obtain ⟨write, board, written, performed, sameBooks, sameClock⟩ :=
        pokeRegister_ready (stamina.ready held) offset data
      exact ⟨_, performed, stamina.move held (.writeRegister _ _ written) sameBooks sameClock⟩
  | peekRegister offset =>
      obtain ⟨byte, read⟩ :=
        RegisterBank.read_succeeds (stamina.ready held).sized.registers offset
      refine ⟨machine, ?_, still⟩
      rw [perform, read]
      rfl
  | raise offset mask =>
      obtain ⟨⟨raised, registers⟩, done⟩ :=
        RegisterBank.raise_succeeds (stamina.ready held).sized.registers offset mask
      refine ⟨{ machine with board := { machine.board with registers } }, ?_,
        stamina.move held (.raise _ _ done) rfl rfl⟩
      rw [perform, raise, done]
      rfl
  | view address =>
      have ready := stamina.ready held
      obtain ⟨byte, seen⟩ := ready.sized.view_succeeds ready.supplied address
      refine ⟨machine, ?_, still⟩
      rw [perform, seen]
      rfl
  | coverage =>
      obtain ⟨coverage, drawn⟩ := (stamina.ready held).supplied.coverage_succeeds
      refine ⟨machine, ?_, still⟩
      rw [perform, drawn]
      rfl
  | takeRedraw => exact ⟨_, rfl, stamina.move held (.takeRedraw _) rfl rfl⟩
  | exchangeCore core => exact ⟨_, rfl, still⟩
  | step =>
      obtain ⟨result, stepped, after⟩ := stamina.step held
      refine ⟨result.machine, ?_, after⟩
      rw [perform, stepped]
      rfl
  | run budget =>
      obtain ⟨overflow, after, ran, last⟩ := run_stamina stamina held
      refine ⟨after, ?_, last⟩
      rw [perform, ran]
      rfl
  | runFrame =>
      obtain ⟨overflow, after, ran, last⟩ := run_stamina stamina held
      refine ⟨after, ?_, last⟩
      rw [perform, runFrame_eq, ran]
      rfl
  | reset =>
      refine ⟨_, rfl, ?_⟩
      rw [reset, board_holdReset]
      exact stamina.powerOn _ still

/-- A young machine carries out every action. Its load grows by the action's cost, and
its age by the steps among it. -/
theorem perform_paced (aged : machine.board.Aged bound age) {action : Action σ}
    (fits : action.Fits) (room : bound + 99 * machine.cost action < 2 ^ 62)
    (young : age + machine.pace action < 2 ^ 32) :
    ∃ after, machine.perform action = .ok after ∧
      after.board.Aged (bound + 99 * machine.cost action) (age + machine.pace action) := by
  have held : ∃ reached years, machine.board.Aged reached years ∧
      reached + 99 * (0 + machine.cost action) ≤ bound + 99 * machine.cost action ∧
      years + (0 + machine.pace action) ≤ age + machine.pace action :=
    ⟨bound, age, aged, by omega, by omega⟩
  obtain ⟨after, performed, reached, years, afterAged, load, older⟩ :=
    perform_stamina (stamina_aged room young) fits held
  exact ⟨after, performed, afterAged.mono load older⟩

/-- A young machine carries out every action, and ages by its cost. -/
theorem perform_aged (aged : machine.board.Aged bound age) {action : Action σ} (fits : action.Fits)
    (room : bound + 99 * machine.cost action < 2 ^ 62)
    (young : age + machine.cost action < 2 ^ 32) :
    ∃ after, machine.perform action = .ok after ∧
      after.board.Aged (bound + 99 * machine.cost action) (age + machine.cost action) := by
  have within := machine.pace_le_cost action
  obtain ⟨after, performed, paced⟩ := perform_paced aged fits room (by omega)
  exact ⟨after, performed, paced.mono le_rfl (by omega)⟩

end Handheld.Machine
