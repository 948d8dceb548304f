/-
# Reachable machines

A machine is reached from power-on by what hosts can do: load images and tables,
let it step, write registers, raise interrupts, press keys, show frames, take
redraw requests, reset it, exchange its core, and restore snapshots of other
reached machines. The core is arbitrary throughout.

Every reached machine has an intact board: its memories have the sizes of
power-on, and each socket holds an image of its own kind. Images and tables are
taken to fit the memory of a host, which is the one assumption here that no
operation checks; arrays have no largest size of their own.
-/

import Handheld.Machine.Snapshot
import Handheld.Proofs.Machine.Stages
import Handheld.Proofs.Rom
import Handheld.Proofs.Wire.Spelling

namespace Handheld

open Checked

/-- No host can hold a sequence of this many items. -/
def hostLimit : Nat := 2 ^ 63

namespace Machine

variable {σ : Type} [Core σ]

/-- The machines that can be reached, with the number of operations behind them.
Those behind a restored snapshot count as well. -/
inductive Reached : Nat → Machine σ → Prop
  | start (core : σ) (settings : Settings) : Reached 0 (start core settings)
  | loadBios {n : Nat} {machine after : Machine σ} {image : Array UInt8}
      (fits : image.size < hostLimit) :
      Reached n machine → machine.loadBios image = .ok after → Reached (n + 1) after
  | loadCartridge {n : Nat} {machine after : Machine σ} {image : Array UInt8} :
      Reached n machine → machine.loadCartridge image = .ok after → Reached (n + 1) after
  | setTable {n : Nat} {machine : Machine σ} {table : CycleTable}
      (fits : table.entries.size < hostLimit) :
      Reached n machine → Reached (n + 1) (machine.setTable table)
  | setKeys {n : Nat} {machine : Machine σ} (keys : Keys) :
      Reached n machine → Reached (n + 1) (machine.setKeys keys)
  | setRunning {n : Nat} {machine : Machine σ} (running : Bool) :
      Reached n machine → Reached (n + 1) (machine.setRunning running)
  | pokeRegister {n : Nat} {machine after : Machine σ} {offset data : UInt8}
      {write : RegisterWrite} :
      Reached n machine → machine.pokeRegister offset data = .ok (write, after) →
        Reached (n + 1) after
  | raise {n : Nat} {machine after : Machine σ} {offset mask : UInt8} {raised : Bool} :
      Reached n machine → machine.raise offset mask = .ok (raised, after) →
        Reached (n + 1) after
  | present {n : Nat} {machine : Machine σ} {memory : Option (Array UInt8)}
      {contrast : Option UInt8} {presentation : Presentation} {board : Board} :
      Reached n machine → machine.board.present memory contrast = .ok (presentation, board) →
        Reached (n + 1) { machine with board }
  | takeRedraw {n : Nat} {machine : Machine σ} :
      Reached n machine → Reached (n + 1) machine.takeRedraw.2
  | step {n : Nat} {machine : Machine σ} {result : Step σ} :
      Reached n machine → machine.step = .ok result → Reached (n + 1) result.machine
  | reset {n : Nat} {machine : Machine σ} : Reached n machine → Reached (n + 1) machine.reset
  | exchangeCore {n : Nat} {machine : Machine σ} (core : σ) :
      Reached n machine → Reached (n + 1) { machine with core }
  | restore {n k : Nat} {machine saved after : Machine σ} :
      Reached n machine → Reached k saved → machine.restore saved.snapshot = .ok after →
        Reached (n + k + 1) after

/-- Some sequence of operations leads to the machine. -/
def Reachable (machine : Machine σ) : Prop :=
  ∃ n, Reached n machine

end Machine

/-- The socket holds an image that fits the memory of a host. -/
def Rom.Filled (rom : Rom) (kind : RomKind) : Prop :=
  ∃ image : Array UInt8, image.size < hostLimit ∧ rom.Holds kind image

theorem Rom.filled_of_bios {image : Array UInt8} {rom : Rom} (fits : image.size < hostLimit)
    (made : Rom.bios image = .ok rom) : rom.Filled .bios :=
  ⟨image, fits, Rom.holds_of_bios made⟩

/-- A cartridge that was accepted is small enough by itself. -/
theorem Rom.filled_of_cartridge {image : Array UInt8} {rom : Rom}
    (made : Rom.cartridge image = .ok rom) : rom.Filled .cartridge :=
  ⟨image, (Rom.of_cartridge made).1.trans_lt (by decide), Rom.holds_of_cartridge made⟩

namespace Rom.Filled

variable {rom other : Rom} {kind : RomKind}

theorem sameImage (filled : rom.Filled kind) (same : rom.SameImage other) : other.Filled kind :=
  let ⟨image, fits, holds⟩ := filled
  ⟨image, fits, holds.sameImage same⟩

theorem clearTouched (filled : rom.Filled kind) : rom.clearTouched.Filled kind :=
  let ⟨image, fits, holds⟩ := filled
  ⟨image, fits, holds.clearTouched⟩

theorem kind_eq (filled : rom.Filled kind) : rom.kind = kind :=
  let ⟨_, _, holds⟩ := filled
  holds.kind

theorem attach (source : other.Filled kind) (sameKind : rom.kind = kind) :
    (rom.attach other).Filled kind :=
  let ⟨image, fits, holds⟩ := source
  ⟨image, fits, sameKind ▸ holds.attach rom⟩

/-- The record of what has been read is far smaller than the image. -/
theorem touched_size_lt (filled : rom.Filled kind) : rom.touched.size < 2 ^ 64 := by
  obtain ⟨image, fits, holds⟩ := filled
  have window : rom.window ≤ 2 ^ 63 := by
    rw [holds.window_eq]
    exact windowFor_le fits.le
  rw [holds.touched_size]
  omega

end Rom.Filled

namespace Board

/-- The board has the memories of power-on and an image in each socket. -/
structure Intact (board : Board) : Prop where
  ram : board.ram.cells.size = Ram.size
  bios : board.bios.Filled .bios
  cartridge : board.cartridge.Filled .cartridge
  registers : board.registers.cells.size = RegisterBank.size
  table : board.audit.table.entries.size < hostLimit
  executed : board.audit.executed.size = (CycleTable.slots + 63) / 64
  pixels : board.screen.pixels.size = Lcd.width * Lcd.height

variable {board other : Board}

theorem Intact.sameFixtures (intact : board.Intact) (same : board.SameFixtures other) :
    other.Intact where
  ram := same.ram.trans intact.ram
  bios := intact.bios.sameImage same.bios
  cartridge := intact.cartridge.sameImage same.cartridge
  registers := same.registers.trans intact.registers
  table := by
    rw [same.table]
    exact intact.table
  executed := same.executed.trans intact.executed
  pixels := same.pixels.trans intact.pixels

theorem Intact.moves (intact : board.Intact) (moves : Moves board other) : other.Intact :=
  intact.sameFixtures (sameFixtures_of_moves moves)

theorem intact_initial (settings : Settings) : (initial settings).Intact where
  ram := Array.size_replicate
  bios := ⟨#[], by decide, Rom.empty_holds _⟩
  cartridge := ⟨#[], by decide, Rom.empty_holds _⟩
  registers := Array.size_replicate
  table := by
    show (Array.replicate CycleTable.slots CycleEntry.unknown).size < hostLimit
    rw [Array.size_replicate]
    decide
  executed := Array.size_replicate
  pixels := Array.size_replicate

theorem Intact.powerOn (intact : board.Intact) (settings : Settings) :
    (board.powerOn settings).Intact where
  ram := (intact_initial settings).ram
  bios := intact.bios.clearTouched
  cartridge := intact.cartridge.clearTouched
  registers := (intact_initial settings).registers
  table := intact.table
  executed := Array.size_replicate
  pixels := (intact_initial settings).pixels

/-- What an intact board writes, a reader can count. -/
theorem Intact.lengthsFit (intact : board.Intact) : board.LengthsFit where
  ram := by
    rw [intact.ram]
    decide
  bios := intact.bios.touched_size_lt
  cartridge := intact.cartridge.touched_size_lt
  registers := by
    rw [intact.registers]
    decide
  table := intact.table.trans (by decide)
  executed := by
    rw [intact.executed]
    decide
  pixels := by
    rw [intact.pixels]
    decide

/-- A saved board with the images of another one. -/
def carriedTo (saved host : Board) : Board :=
  saved.withoutImages.attachImages host

theorem Intact.carriedTo (saved : board.Intact) (host : other.Intact) :
    (board.carriedTo other).Intact where
  ram := saved.ram
  bios := host.bios.attach saved.bios.kind_eq
  cartridge := host.cartridge.attach saved.cartridge.kind_eq
  registers := saved.registers
  table := saved.table
  executed := saved.executed
  pixels := saved.pixels

end Board

namespace Machine

variable {σ τ : Type}

/-- The bytes are a snapshot of the machine. The discrepancies of the audit may
have been written in any order. -/
def IsSnapshot (machine : Machine σ) (bytes : List UInt8) : Prop :=
  ∃ order : List (UInt16 × UInt32), order.Perm machine.board.audit.discrepancies.entries ∧
    bytes = machine.board.writeInOrder order

theorem isSnapshot_snapshot (machine : Machine σ) : machine.IsSnapshot machine.snapshot :=
  ⟨_, .refl _, machine.board.write_eq_writeInOrder⟩

/-- Restoring a snapshot of an intact board succeeds, whatever follows the
snapshot, and replaces nothing but the board. A snapshot does not know the core, so
that the machines may have different ones. -/
theorem restore_of_isSnapshot {saved : Machine τ} {bytes : List UInt8}
    (intact : saved.board.Intact) (written : saved.IsSnapshot bytes) (host : Machine σ)
    (rest : List UInt8) :
    host.restore (bytes ++ rest) =
      .ok { host with board := saved.board.carriedTo host.board } := by
  obtain ⟨order, perm, rfl⟩ := written
  have decoded : Wire.decode (saved.board.writeInOrder order ++ rest) =
      .ok saved.board.withoutImages := by
    rw [Wire.decode, Board.spells_writeInOrder perm intact.lengthsFit]
  rw [restore, decoded, ok_bind]
  rfl

/-- Restoring nothing but the snapshot. -/
theorem restore_eq_carriedTo {saved : Machine τ} {bytes : List UInt8}
    (intact : saved.board.Intact) (written : saved.IsSnapshot bytes) (host : Machine σ) :
    host.restore bytes = .ok { host with board := saved.board.carriedTo host.board } := by
  have restored := restore_of_isSnapshot intact written host []
  rwa [List.append_nil] at restored

theorem eq_of_restore_snapshot {saved : Machine τ} {host after : Machine σ}
    (intact : saved.board.Intact) (restored : host.restore saved.snapshot = .ok after) :
    after = { host with board := saved.board.carriedTo host.board } := by
  rw [restore_eq_carriedTo intact saved.isSnapshot_snapshot] at restored
  exact (Except.ok.inj restored).symm

variable [Core σ]

theorem Reached.intact {n : Nat} {machine : Machine σ} (reached : Reached n machine) :
    machine.board.Intact := by
  induction reached with
  | start core settings =>
      rw [Machine.start, board_holdReset]
      exact Board.intact_initial settings
  | loadBios fits _ loaded ih =>
      obtain ⟨bios, made, same⟩ := bind_eq_ok.mp loaded
      cases same
      exact { ih with bios := Rom.filled_of_bios fits made }
  | loadCartridge _ loaded ih =>
      obtain ⟨cartridge, made, same⟩ := bind_eq_ok.mp loaded
      cases same
      exact { ih with cartridge := Rom.filled_of_cartridge made }
  | setTable fits _ ih => exact { ih with table := fits }
  | setKeys keys _ ih =>
      rw [board_setKeys]
      exact ih.moves (.single (.setKeys keys _))
  | setRunning running _ ih => exact ih
  | pokeRegister _ poked ih =>
      obtain ⟨⟨write, board⟩, written, same⟩ := bind_eq_ok.mp poked
      cases same
      exact ih.moves (.single (.writeRegister _ _ written))
  | raise _ done ih =>
      obtain ⟨⟨raised, registers⟩, raising, same⟩ := bind_eq_ok.mp done
      cases same
      exact ih.moves (.single (.raise _ _ raising))
  | present _ shown ih => exact ih.moves (.single (.present _ _ shown))
  | takeRedraw _ ih => exact ih.moves (.single (.takeRedraw _))
  | step _ stepped ih => exact ih.moves (moves_of_step stepped)
  | reset _ ih =>
      rw [Machine.reset, board_holdReset]
      exact ih.powerOn _
  | exchangeCore core _ ih => exact ih
  | restore _ _ restored ih savedIntact =>
      rw [eq_of_restore_snapshot savedIntact restored]
      exact savedIntact.carriedTo ih

theorem Reachable.intact {machine : Machine σ} (reachable : machine.Reachable) :
    machine.board.Intact :=
  let ⟨_, reached⟩ := reachable
  reached.intact

end Machine

end Handheld
