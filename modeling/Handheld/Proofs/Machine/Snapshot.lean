/-
# Snapshots are faithful

A snapshot of a reachable machine can be restored into any other one, whatever cores
the two have. All of the state behind the bus is then that of the machine that was
saved, and the images are still those of the machine that restored. Where both hold
the same images the boards are equal, and a machine with the same core goes on
exactly as the saved one would have.

The transaction on the bus is not part of a snapshot. It steers nothing, so the
two runs are compared without it.
-/

import Handheld.Core.Scripted
import Handheld.Proofs.Machine.Course
import Handheld.Proofs.Machine.Reachable
import Handheld.Proofs.Machine.Steps

namespace Handheld

open Checked

/-- The boards agree in everything but their sockets. -/
structure Board.SameState (first second : Board) : Prop where
  ram : first.ram = second.ram
  registers : first.registers = second.registers
  audit : first.audit = second.audit
  screen : first.screen = second.screen
  incidents : first.incidents = second.incidents
  oscillator : first.oscillator = second.oscillator
  renderDone : first.renderDone = second.renderDone
  copyComplete : first.copyComplete = second.copyComplete
  ticks : first.ticks = second.ticks

/-- The sockets have the same bytes, padding included, and images of one length. -/
structure Rom.SameBytes (first second : Rom) : Prop where
  buffer : first.buffer = second.buffer
  length : first.length = second.length
  window : first.window = second.window
  image : first.image = second.image

theorem Rom.SameImage.image_eq {rom other : Rom} (same : rom.SameImage other) :
    other.image = rom.image := by
  rw [Rom.image, Rom.image, same.buffer, same.length]

/-- Attached bytes are those of the source, whatever has been read of them. -/
theorem Rom.sameBytes_attach (rom source : Rom) : (rom.attach source).SameBytes source :=
  ⟨rfl, rfl, rfl, rfl⟩

/-- Sockets of reachable boards that show the same image hold the same image. -/
theorem Rom.Filled.attach_eq_self {rom source : Rom} {kind : RomKind} (filled : rom.Filled kind)
    (sourceFilled : source.Filled kind) (same : rom.image = source.image) (bytes : Array UInt8) :
    ({ rom with buffer := bytes } : Rom).attach source = rom := by
  obtain ⟨image, fits, holds⟩ := filled
  obtain ⟨other, otherFits, otherHolds⟩ := sourceFilled
  have short : image.size < 2 ^ 64 := fits.trans (by decide)
  have otherShort : other.size < 2 ^ 64 := otherFits.trans (by decide)
  rw [holds.image_eq short, otherHolds.image_eq otherShort] at same
  cases same
  exact holds.attach_eq_self otherHolds bytes

namespace Board

theorem sameState_carriedTo (saved host : Board) : (saved.carriedTo host).SameState saved :=
  ⟨rfl, rfl, rfl, rfl, rfl, rfl, rfl, rfl, rfl⟩

/-- A board that is carried to where its images are arrives unchanged. -/
theorem Intact.carriedTo_eq_self {saved host : Board} (intact : saved.Intact)
    (hostIntact : host.Intact) (sameBios : saved.bios.image = host.bios.image)
    (sameCartridge : saved.cartridge.image = host.cartridge.image) :
    saved.carriedTo host = saved := by
  have bios := intact.bios.attach_eq_self hostIntact.bios sameBios #[]
  have cartridge := intact.cartridge.attach_eq_self hostIntact.cartridge sameCartridge #[]
  show ({ saved with
    bios := ({ saved.bios with buffer := #[] } : Rom).attach host.bios
    cartridge := ({ saved.cartridge with buffer := #[] } : Rom).attach host.cartridge } : Board) = saved
  rw [bios, cartridge]

end Board

namespace Machine

variable {σ τ : Type} [Core σ] [Core τ]

/-- What a run shows: where it overflowed the stack, and what its machine has
become, but for the transaction on the bus. -/
def outcome (result : Option StackOverflow × Machine σ) :
    Option StackOverflow × σ × Board × Settings × Option UInt16 :=
  (result.1, result.2.course)

/-- Machines on the same course have the same outcomes, run for run. -/
theorem outcome_of_run {first second : Machine σ} (sameCourse : first.course = second.course)
    (n : Nat) : (first.run n).map outcome = (second.run n).map outcome := by
  have sameOutcome (a b : Option StackOverflow × Machine σ)
      (together : a.1 = b.1 ∧ a.2.course = b.2.course) : outcome a = outcome b :=
    Prod.ext together.1 together.2
  exact ((run_alike sameCourse n).imp sameOutcome).map_eq

/-- Restoring a snapshot of a reachable machine in a reachable machine succeeds,
whatever cores the two have. It brings all state but the images, and leaves
everything but the board alone. If both hold the same images, the boards are equal
afterwards. If moreover cores and settings are equal and neither machine is halted,
then every run of the restored machine is one of the saved machine.

The saved machine has a core of its own type, which may not be that of the host. So
its runs are those of any machine `twin` that has its board and a core of the host's
type, such as the saved machine itself if the types are the same. -/
theorem restore_snapshot {saved : Machine τ} {host : Machine σ}
    (savedReachable : saved.Reachable) (hostReachable : host.Reachable) {bytes : List UInt8}
    (written : saved.IsSnapshot bytes) (rest : List UInt8) :
    ∃ restored, host.restore (bytes ++ rest) = .ok restored ∧
      restored = { host with board := restored.board } ∧
      restored.board.SameState saved.board ∧
      (∀ offset, restored.board.registers.read offset = saved.board.registers.read offset) ∧
      restored.board.bios.SameBytes host.board.bios ∧
      restored.board.cartridge.SameBytes host.board.cartridge ∧
      (saved.board.bios.image = host.board.bios.image →
        saved.board.cartridge.image = host.board.cartridge.image →
        restored.board = saved.board ∧
        ∀ twin : Machine σ, twin.board = saved.board →
          host.core = twin.core → host.settings = twin.settings →
          host.haltedAt = none → twin.haltedAt = none →
          ∀ n, (restored.run n).map outcome = (twin.run n).map outcome) := by
  have intact := savedReachable.intact
  refine ⟨_, restore_of_isSnapshot intact written host rest, rfl,
    Board.sameState_carriedTo _ _, fun _ => rfl, Rom.sameBytes_attach _ _,
    Rom.sameBytes_attach _ _, fun sameBios sameCartridge => ?_⟩
  have sameBoard : saved.board.carriedTo host.board = saved.board :=
    intact.carriedTo_eq_self hostReachable.intact sameBios sameCartridge
  refine ⟨sameBoard, fun twin twinBoard sameCore sameSettings awake twinAwake n => ?_⟩
  apply outcome_of_run
  simp only [course, sameBoard, twinBoard, sameCore, sameSettings, awake, twinAwake]

/-- A machine with two images in its sockets. -/
def stocked (core : ScriptedCore) : Machine ScriptedCore :=
  let fresh := start core { resetHalfCycles := 0 }
  { fresh with
    board := { fresh.board with
      bios := .ofImage .bios #[1, 2, 3]
      cartridge := .ofImage .cartridge #[4, 5] } }

theorem reachable_stocked (core : ScriptedCore) : (stocked core).Reachable := by
  have small : (#[1, 2, 3] : Array UInt8).size < hostLimit := by decide
  have loaded : Reached 1 _ := .loadBios small (.start core { resetHalfCycles := 0 }) rfl
  exact ⟨2, .loadCartridge loaded (show loadCartridge _ #[4, 5] = _ from rfl)⟩

/-- A script that reads both images, writes to memory, and reads the first image again. -/
def explorer : ScriptedCore where
  script := ScriptedCore.read 0x0001 ++ ScriptedCore.read 0x2101 ++
    ScriptedCore.write 0x1002 7 ++ ScriptedCore.read 0x0002

/-- A machine has read its images and written to memory when it is saved, and has its last
read before it. It is restored in one that has its images and its core, but has not
stepped. -/
theorem restore_snapshot_stepped :
    ∃ saved host restored : Machine ScriptedCore,
      saved.Reachable ∧ host.Reachable ∧ saved.IsSnapshot saved.snapshot ∧
      saved.board.ticks = 8 ∧ host.board.ticks = 0 ∧
      saved.board.view 0x1002 = .ok 7 ∧ host.board.view 0x1002 = .ok 0 ∧
      saved.board.bios.touchedCount = .ok 1 ∧ host.board.bios.touchedCount = .ok 0 ∧
      saved.board.bios.image = .ok #[1, 2, 3] ∧ host.board.bios.image = .ok #[1, 2, 3] ∧
      saved.board.cartridge.image = .ok #[4, 5] ∧ host.board.cartridge.image = .ok #[4, 5] ∧
      host.restore (saved.snapshot ++ [7]) = .ok restored ∧ restored.board = saved.board ∧
      ∀ n, (restored.run n).map outcome = (saved.run n).map outcome := by
  have stepped : ((stocked explorer).run 4).map
      (fun result => (result.2.board.ticks, result.2.haltedAt)) = .ok (8, none) := by decide +kernel
  have viewed : ((stocked explorer).run 4 >>= fun result => result.2.board.view 0x1002) =
      .ok 7 := by decide +kernel
  have touched : ((stocked explorer).run 4 >>= fun result => result.2.board.bios.touchedCount) =
      .ok 1 := by decide +kernel
  obtain ⟨⟨overflow, saved⟩, ran, same⟩ := of_map_eq_ok stepped
  obtain ⟨ticks, awake⟩ := Prod.mk.inj same
  rw [ran, ok_bind] at viewed touched
  let host : Machine ScriptedCore := { stocked {} with core := saved.core }
  have savedReachable : saved.Reachable :=
    run_invariant Reachable (fun _ _ ⟨n, reached⟩ stepped => ⟨n + 1, reached.step stepped⟩)
      (reachable_stocked explorer) ran
  have hostReachable : host.Reachable :=
    let ⟨n, reached⟩ := reachable_stocked {}
    ⟨n + 1, reached.exchangeCore saved.core⟩
  have hostBios : (Rom.ofImage .bios #[1, 2, 3]).image = .ok #[1, 2, 3] := by decide +kernel
  have hostCartridge : (Rom.ofImage .cartridge #[4, 5]).image = .ok #[4, 5] := by decide +kernel
  have fixtures : (stocked explorer).board.SameFixtures saved.board :=
    run_invariant (fun reached => (stocked explorer).board.SameFixtures reached.board)
      (fun _ _ same stepped => same.trans (Board.sameFixtures_of_moves (moves_of_step stepped)))
      (.refl _) ran
  have bios : saved.board.bios.image = .ok #[1, 2, 3] := fixtures.bios.image_eq.trans hostBios
  have cartridge : saved.board.cartridge.image = .ok #[4, 5] :=
    fixtures.cartridge.image_eq.trans hostCartridge
  have hostViewed : (stocked {}).board.view 0x1002 = .ok 0 := by decide +kernel
  have hostTouched : (stocked {}).board.bios.touchedCount = .ok 0 := by decide +kernel
  obtain ⟨restored, done, -, -, -, -, -, resumes⟩ :=
    restore_snapshot savedReachable hostReachable saved.isSnapshot_snapshot [7]
  obtain ⟨sameBoard, sameRuns⟩ :=
    resumes (bios.trans hostBios.symm) (cartridge.trans hostCartridge.symm)
  have sameSettings : host.settings = saved.settings := (flags_of_run ran).1.symm
  exact ⟨saved, host, restored, savedReachable, hostReachable, saved.isSnapshot_snapshot, ticks,
    rfl, viewed, hostViewed, touched, hostTouched, bios, hostBios, cartridge, hostCartridge, done,
    sameBoard, sameRuns saved rfl rfl sameSettings rfl awake⟩

end Machine

end Handheld
