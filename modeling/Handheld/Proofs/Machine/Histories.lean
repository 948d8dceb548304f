/-
# Histories without a fault

A history is a row of actions of a host from power-on, with snapshots of other
machines restored in between; those machines have histories of their own, and may
have other cores. As long as a history is shorter than 2 to the 32, counting what
lies behind its snapshots, nothing in it runs into a fault, and the machine it
leaves is well formed: every buffer has the size that its accesses rely on, and
every register keeps to its width.

The bound is the width of a discrepancy count. It is the first counter that could
pass its end.
-/

import Handheld.Core.Scripted
import Handheld.Proofs.Machine.Actions

namespace Handheld

open Checked

/-- A socket is well formed when its buffer is a power of two that has room for the
image, and the record of what was read has a bit for each of its bytes. -/
structure Rom.WellFormed (rom : Rom) : Prop where
  buffer : ∃ exponent, rom.buffer.size = 2 ^ exponent
  length : rom.length.toNat ≤ rom.buffer.size
  touched : rom.touched.size = (rom.buffer.size + 63) / 64

/-- A machine is well formed, between two steps, when its memories have their sizes
and its registers their widths. -/
structure Machine.WellFormed {σ : Type} (machine : Machine σ) : Prop where
  ram : machine.board.ram.cells.size = 4096
  registers : machine.board.registers.cells.size = 256
  pixels : machine.board.screen.pixels.size = 6144
  executed : machine.board.audit.executed.size = 12
  bios : machine.board.bios.WellFormed
  cartridge : machine.board.cartridge.WellFormed
  seconds : machine.board.registers.seconds.count.toNat < 2 ^ 24
  map : machine.board.registers.refresh.map.toNat < 2 ^ 24
  mode : machine.board.registers.refresh.mode.toNat ≤ 0x3F
  contrast : machine.board.registers.lcd.contrast.toNat ≤ 0x3F
  ticks : Even machine.board.ticks.toNat

theorem Rom.Filled.wellFormed {rom : Rom} {kind : RomKind} (filled : rom.Filled kind) :
    rom.WellFormed := by
  obtain ⟨image, fits, holds⟩ := filled
  have window : rom.buffer.size = windowFor image.size := holds.window_eq
  refine ⟨⟨Nat.clog 2 image.size, window.trans (windowFor_eq_clog _)⟩, ?_, holds.touched_size⟩
  have narrow : image.size < 2 ^ 64 := fits.trans (by decide)
  rw [window, holds.length]
  show (UInt64.ofNat image.size).toNat ≤ _
  rw [UInt64.toNat_ofNat_of_lt' narrow]
  exact le_windowFor image.size

namespace Machine

theorem wellFormed_of_aged {σ : Type} {machine : Machine σ} {bound age : Nat}
    (aged : machine.board.Aged bound age) : machine.WellFormed where
  ram := aged.bounded.intact.ram
  registers := aged.bounded.intact.registers
  pixels := aged.bounded.intact.pixels
  executed := aged.bounded.intact.executed
  bios := aged.bounded.intact.bios.wellFormed
  cartridge := aged.bounded.intact.cartridge.wellFormed
  seconds := aged.bounded.ranges.seconds
  map := aged.bounded.ranges.map
  mode := aged.bounded.ranges.mode
  contrast := aged.bounded.ranges.contrast
  ticks := Nat.even_iff.mpr aged.even

/-- What a history leads to: a machine, or a fault of its last action. The number
counts the actions, each run by its steps, and those behind restored snapshots. -/
inductive History : {σ : Type} → [Core σ] → Nat → Checked (Machine σ) → Prop
  | start {σ : Type} [Core σ] (core : σ) (settings : Settings) :
      History 0 (.ok (start core settings))
  | act {σ : Type} [Core σ] {n : Nat} {machine : Machine σ} (action : Action σ)
      (fits : action.Fits) :
      History n (.ok machine) → History (n + machine.cost action) (machine.perform action)
  | restore {σ τ : Type} [Core σ] [Core τ] {n k : Nat} {machine : Machine σ} {saved : Machine τ}
      {bytes : List UInt8} :
      History n (.ok machine) → History k (.ok saved) → saved.IsSnapshot bytes →
        History (n + k + 1) (.ok (machine.accept (machine.restore bytes)))

/-- A short history has led to a machine, which is no older than the history. -/
theorem History.aged {σ : Type} [Core σ] {n : Nat} {outcome : Checked (Machine σ)}
    (history : History n outcome) (short : n < 2 ^ 32) :
    ∃ machine, outcome = .ok machine ∧ machine.board.Aged (99 * n) n := by
  induction history with
  | start core settings => exact ⟨_, rfl, aged_start core settings⟩
  | act action fits _ ih =>
      obtain ⟨_, ⟨⟩, aged⟩ := ih (by omega)
      rw [Nat.mul_add]
      exact perform_aged aged fits (by omega) short
  | @restore σ τ _ _ n k machine saved bytes _ _ written ih savedIh =>
      obtain ⟨_, ⟨⟩, aged⟩ := ih (by omega)
      obtain ⟨_, ⟨⟩, savedAged⟩ := savedIh (by omega)
      have restored := restore_eq_carriedTo savedAged.bounded.intact written machine
      rw [restored]
      exact ⟨_, rfl, (savedAged.carriedTo aged.bounded.intact).mono (by omega) (by omega)⟩

/-- Every history shorter than 2 to the 32 has led to a machine, never to a fault,
and the machine is well formed. -/
theorem wellFormed_of_history {σ : Type} [Core σ] {n : Nat} {outcome : Checked (Machine σ)}
    (history : History n outcome) (short : n < 2 ^ 32) :
    ∃ machine, outcome = .ok machine ∧ machine.WellFormed := by
  obtain ⟨machine, done, aged⟩ := history.aged short
  exact ⟨machine, done, wellFormed_of_aged aged⟩

/-- A machine that was told to load an image too large for its socket restores a
snapshot of one that has stepped with a smaller image, and writes a register. -/
theorem wellFormed_of_history_restored :
    ∃ (stepped : Machine ScriptedCore) (n : Nat) (outcome : Checked (Machine ScriptedCore)),
      History 2 (.ok stepped) ∧ History n outcome ∧ n < 2 ^ 32 ∧
      ∃ machine, outcome = .ok machine ∧ machine.WellFormed := by
  let image : Array UInt8 := .replicate 3 7
  have small : (Action.loadBios image : Action ScriptedCore).Fits := by
    show (Array.replicate 3 7).size < hostLimit
    rw [Array.size_replicate]
    decide
  have loaded : History 1 (.ok _) := .act (.loadBios image) small (.start ({} : ScriptedCore) {})
  have stepping := History.act .step trivial loaded
  obtain ⟨stepped, done, -⟩ := wellFormed_of_history stepping (by decide)
  rw [done] at stepping
  have refused : History 1 (.ok _) :=
    .act (.loadCartridge (.replicate 0x200001 0)) trivial (.start ({} : ScriptedCore) {})
  have restored := History.restore refused stepping stepped.isSnapshot_snapshot
  have poked := History.act (.pokeRegister 0x80 0xFF) trivial restored
  have short : 1 + 2 + 1 + 1 < 2 ^ 32 := by decide
  exact ⟨stepped, _, _, stepping, poked, short, wellFormed_of_history poked short⟩

end Machine

end Handheld
