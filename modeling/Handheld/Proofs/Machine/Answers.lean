/-
# What hosts are told

Carrying out an action tells the host something: whether an image was accepted, what
a register holds, where the stack overflowed. This module has the answers beside the
machines that actions lead to. A young machine gives an answer to every action.

A coverage report is not among the answers. It is what the audit has to say, and
drawing it up changes nothing.
-/

import Handheld.Proofs.Machine.Actions

namespace Handheld.Machine

open Checked

/-- What the host learns from an action. -/
inductive Answer
  | nothing
  /-- An image was put into its socket, or refused. -/
  | loaded (refusal : Option Error)
  | written (write : RegisterWrite)
  | byte (data : UInt8)
  | raised (raised : Bool)
  | redraw (wanted : Bool)
  | ran (overflow : Option StackOverflow)
  | framed (shown : Except StackOverflow Bool)

variable {σ : Type}

/-- The answer to putting an image into its socket, and the machine afterwards. -/
def answerLoad (machine : Machine σ) : Except Error (Machine σ) → Answer × Machine σ
  | .ok after => (.loaded none, after)
  | .error refusal => (.loaded (some refusal), machine)

variable [Core σ]

/-- Carry out an action and answer the host. -/
def respond (machine : Machine σ) : Action σ → Checked (Answer × Machine σ)
  | .loadBios image => .ok (machine.answerLoad (machine.loadBios image))
  | .loadCartridge image => .ok (machine.answerLoad (machine.loadCartridge image))
  | .setTable table => .ok (.nothing, machine.setTable table)
  | .setKeys keys => .ok (.nothing, machine.setKeys keys)
  | .setRunning running => .ok (.nothing, machine.setRunning running)
  | .pokeRegister offset data =>
    (machine.pokeRegister offset data).map fun (write, after) => (.written write, after)
  | .peekRegister offset =>
    (machine.board.registers.read offset).map fun data => (.byte data, machine)
  | .raise offset mask =>
    (machine.raise offset mask).map fun (raised, after) => (.raised raised, after)
  | .view address => (machine.board.view address).map fun data => (.byte data, machine)
  | .coverage => machine.board.coverage.map fun _ => (.nothing, machine)
  | .takeRedraw => .ok (.redraw machine.takeRedraw.1, machine.takeRedraw.2)
  | .exchangeCore core => .ok (.nothing, { machine with core })
  | .step => machine.step.map fun result => (.ran result.overflow, result.machine)
  | .run budget => (machine.run budget).map fun (overflow, after) => (.ran overflow, after)
  | .runFrame => machine.runFrame.map fun (shown, after) => (.framed shown, after)
  | .reset => .ok (.nothing, machine.reset)

/-- Carry out actions, the first one first, and give all answers. -/
def respondAll : List (Action σ) → Machine σ → Checked (List Answer × Machine σ)
  | [], machine => .ok ([], machine)
  | action :: actions, machine => do
    let (answer, machine) ← machine.respond action
    let (answers, machine) ← machine.respondAll actions
    .ok (answer :: answers, machine)

/-- Answering is carrying out, with an answer. -/
theorem map_respond (machine : Machine σ) (action : Action σ) :
    (machine.respond action).map Prod.snd = machine.perform action := by
  have twice {α β γ : Type} (computation : Checked α) (f : α → β) (g : β → γ) :
      (computation.map f).map g = computation.map fun a => g (f a) := by
    cases computation <;> rfl
  cases action with
  | loadBios image =>
      show Except.ok (machine.answerLoad _).2 = Except.ok (machine.accept _)
      cases machine.loadBios image <;> rfl
  | loadCartridge image =>
      show Except.ok (machine.answerLoad _).2 = Except.ok (machine.accept _)
      cases machine.loadCartridge image <;> rfl
  | setTable | setKeys | setRunning | takeRedraw | exchangeCore | reset => rfl
  | pokeRegister | peekRegister | raise | view | coverage | step | run | runFrame =>
      exact twice _ _ _

/-- The number of steps that an action asks for. A frame asks for those of the settings,
even if the machine is paused. -/
def Action.steps (settings : Settings) : Action σ → Nat
  | .step => 1
  | .run budget => budget
  | .runFrame => settings.stepsPerFrame.toNat
  | _ => 0

variable {machine : Machine σ} {bound age : Nat}

theorem pace_le_steps (machine : Machine σ) (action : Action σ) :
    machine.pace action ≤ action.steps machine.settings := by
  cases action with
  | run budget => exact machine.stepsTaken_le budget
  | runFrame =>
      apply (machine.stepsTaken_le _).trans
      rw [frameBudget]
      split
      · exact le_rfl
      · exact Nat.zero_le _
  | _ => exact le_rfl

theorem cost_le_pace (machine : Machine σ) (action : Action σ) :
    machine.cost action ≤ machine.pace action + 1 := by
  cases action with
  | run | runFrame => exact Nat.le_succ _
  | _ => exact Nat.le_add_left _ _

/-- A young machine answers, and is older by no more than the steps it was asked for. -/
theorem respond_aged (aged : machine.board.Aged bound age) {action : Action σ}
    (fits : action.Fits) (room : bound + 99 * (action.steps machine.settings + 1) < 2 ^ 62)
    (young : age + action.steps machine.settings < 2 ^ 32) :
    ∃ answer after, machine.respond action = .ok (answer, after) ∧
      after.board.Aged (bound + 99 * (action.steps machine.settings + 1))
        (age + action.steps machine.settings) := by
  have taken := machine.pace_le_steps action
  have cost := machine.cost_le_pace action
  obtain ⟨after, performed, paced⟩ := perform_paced aged fits (by omega) (by omega)
  rw [← map_respond] at performed
  obtain ⟨⟨answer, _⟩, responded, rfl⟩ := of_map_eq_ok performed
  exact ⟨answer, _, responded, paced.mono (by omega) (by omega)⟩

omit [Core σ] in
theorem settings_answerLoad {loaded : Except Error (Machine σ)}
    (kept : ∀ after, loaded = .ok after → after.settings = machine.settings) :
    (machine.answerLoad loaded).2.settings = machine.settings := by
  cases loaded with
  | error refusal => rfl
  | ok after => exact kept after rfl

/-- No action changes the settings. -/
theorem settings_of_respond {action : Action σ} {answer : Answer} {after : Machine σ}
    (responded : machine.respond action = .ok (answer, after)) :
    after.settings = machine.settings := by
  cases action with
  | loadBios image =>
      obtain rfl : (machine.answerLoad (machine.loadBios image)).2 = after :=
        congrArg Prod.snd (Except.ok.inj responded)
      apply settings_answerLoad
      intro after loaded
      obtain ⟨bios, -, same⟩ := bind_eq_ok.mp loaded
      cases same
      rfl
  | loadCartridge image =>
      obtain rfl : (machine.answerLoad (machine.loadCartridge image)).2 = after :=
        congrArg Prod.snd (Except.ok.inj responded)
      apply settings_answerLoad
      intro after loaded
      obtain ⟨cartridge, -, same⟩ := bind_eq_ok.mp loaded
      cases same
      rfl
  | setTable | setRunning | takeRedraw | exchangeCore =>
      cases responded
      rfl
  | setKeys keys =>
      cases responded
      exact (flags_forwardKeys _).1
  | pokeRegister | raise =>
      obtain ⟨result, done, same⟩ := of_map_eq_ok responded
      obtain ⟨changed, -, rest⟩ := bind_eq_ok.mp done
      cases rest
      cases same
      rfl
  | peekRegister | view | coverage =>
      obtain ⟨result, -, same⟩ := of_map_eq_ok responded
      cases same
      rfl
  | step =>
      obtain ⟨result, stepped, same⟩ := of_map_eq_ok responded
      cases same
      exact (flags_of_step stepped).1
  | run budget =>
      obtain ⟨⟨overflow, last⟩, ran, same⟩ := of_map_eq_ok responded
      cases same
      exact (flags_of_run ran).1
  | runFrame =>
      rw [respond, runFrame_eq] at responded
      obtain ⟨shown, mapped, same⟩ := of_map_eq_ok responded
      obtain ⟨⟨overflow, last⟩, ran, rfl⟩ := of_map_eq_ok mapped
      cases same
      exact (flags_of_run ran).1
  | reset =>
      cases responded
      exact (flags_holdReset _).1

theorem settings_of_perform {action : Action σ} {after : Machine σ}
    (performed : machine.perform action = .ok after) : after.settings = machine.settings := by
  rw [← map_respond] at performed
  obtain ⟨⟨answer, _⟩, responded, rfl⟩ := of_map_eq_ok performed
  exact settings_of_respond responded

/-- A young machine answers a row of actions, and is older by no more than the steps it was
asked for. -/
theorem respondAll_aged {actions : List (Action σ)} (aged : machine.board.Aged bound age)
    (fits : ∀ action ∈ actions, action.Fits)
    (room : bound + 99 * ((actions.map (Action.steps machine.settings)).sum + actions.length) <
      2 ^ 62)
    (young : age + (actions.map (Action.steps machine.settings)).sum < 2 ^ 32) :
    Succeeds (machine.respondAll actions) := by
  induction actions generalizing machine bound age with
  | nil => exact .ok _
  | cons action actions ih =>
      rw [List.map_cons, List.sum_cons, List.length_cons] at room
      rw [List.map_cons, List.sum_cons] at young
      obtain ⟨answer, next, responded, nextAged⟩ :=
        respond_aged aged (fits _ List.mem_cons_self) (by omega) (by omega)
      have rest : Succeeds (next.respondAll actions) := by
        rw [← settings_of_respond responded] at room young nextAged
        exact ih nextAged (fun _ later => fits _ (List.mem_cons_of_mem _ later)) (by omega)
          (by omega)
      refine Succeeds.bind ⟨_, responded⟩ ?_
      rintro ⟨_, _⟩ again
      cases Except.ok.inj (responded.symm.trans again)
      exact rest.bind fun _ _ => .ok _

/-- From power-on, actions are answered as long as their steps can be counted with 32
bits. -/
theorem respondAll_start_succeeds (core : σ) (settings : Settings) {actions : List (Action σ)}
    (fits : ∀ action ∈ actions, action.Fits) (few : actions.length < 2 ^ 55)
    (short : (actions.map (Action.steps settings)).sum < 2 ^ 32) :
    Succeeds ((start core settings).respondAll actions) := by
  have kept := (settings_start core settings).1
  apply respondAll_aged (aged_start core settings) fits
  · rw [kept]
    omega
  · rw [kept]
    omega

end Handheld.Machine
