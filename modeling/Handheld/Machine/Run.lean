/-
# Runs

Steps in a row, for a number of cycles or for the cycles of a frame. A run ends
early when the stack overflows, and reports are handed to a function of the
caller's, so that nothing is kept of a step that nobody asks about.
-/

import Handheld.Machine.Step

namespace Handheld.Machine

variable {σ : Type} [Core σ]

/-- Take up to `n` steps, feeding each report to `note`. A run ends early at a
stack overflow. -/
@[specialize]
def runNoting {β : Type} (note : β → Option StepReport → β) :
    Nat → β → Machine σ → Checked (β × Option StackOverflow × Machine σ)
  | 0, noted, machine => .ok (noted, none, machine)
  | n + 1, noted, machine => do
    let ⟨report, overflow, machine⟩ ← machine.step
    let noted := note noted report
    match overflow with
    | some overflow => .ok (noted, some overflow, machine)
    | none => runNoting note n noted machine

/-- Take up to `n` steps. -/
def run (n : Nat) (machine : Machine σ) : Checked (Option StackOverflow × Machine σ) := do
  let (_, result) ← runNoting (fun _ _ => ()) n () machine
  .ok result

/-- Take the steps of one frame, feeding each report to `note`, and say whether
a frame was shown. A paused machine takes none. -/
def runFrameNoting {β : Type} (note : β → Option StepReport → β) (noted : β)
    (machine : Machine σ) : Checked (β × Except StackOverflow Bool × Machine σ) := do
  let before := machine.board.screen.frames
  let budget := if machine.running then machine.settings.stepsPerFrame.toNat else 0
  let (noted, overflow, machine) ← runNoting note budget noted machine
  match overflow with
  | some overflow => .ok (noted, .error overflow, machine)
  | none => .ok (noted, .ok (machine.board.screen.frames != before), machine)

/-- Take the steps of one frame, and say whether a frame was shown. -/
def runFrame (machine : Machine σ) : Checked (Except StackOverflow Bool × Machine σ) := do
  let (_, result) ← runFrameNoting (fun _ _ => ()) () machine
  .ok result

end Handheld.Machine
