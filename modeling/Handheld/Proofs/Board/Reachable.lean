/-
# Reachable boards

A board need not sit in a machine. Whoever holds one can let anything happen to it that
happens on a machine, and more besides: exchange an image for any other, fill working
memory, use the register bank directly, and put the audit, the screen and the counts of
incidents to whatever they like.

None of this takes a cell away, and the sockets are never without an image. The boards of
reachable machines are among the reachable boards.
-/

import Handheld.Proofs.Board.Progress

namespace Handheld

open Checked

namespace Board

/-- The boards that can be reached from power-on. -/
inductive Reachable : Board → Prop
  | initial (settings : Settings) : Reachable (initial settings)
  | move {board changed : Board} : Reachable board → Move board changed → Reachable changed
  | insertBios {board : Board} {bios : Rom} {kind : RomKind} {image : Array UInt8} :
      Reachable board → bios.Holds kind image → Reachable { board with bios }
  | insertCartridge {board : Board} {cartridge : Rom} {kind : RomKind} {image : Array UInt8} :
      Reachable board → cartridge.Holds kind image → Reachable { board with cartridge }
  | fillRam {board : Board} {ram : Ram} :
      Reachable board → ram.cells.size = board.ram.cells.size → Reachable { board with ram }
  | writeBank {board : Board} {offset data : UInt8} {report : RegisterWrite}
      {registers : RegisterBank} :
      Reachable board → board.registers.write offset data = .ok (report, registers) →
        Reachable { board with registers }
  | tickBank {board : Board} {onSeconds onRefresh : Bool} {tick : Option RefreshTick}
      {registers : RegisterBank} :
      Reachable board → board.registers.tick onSeconds onRefresh = .ok (tick, registers) →
        Reachable { board with registers }
  | clearBank {board : Board} : Reachable board → Reachable { board with registers := .initial }
  | replaceAudit {board : Board} {audit : Audit} :
      Reachable board → audit.executed.size = board.audit.executed.size →
        Reachable { board with audit }
  | replaceScreen {board : Board} {screen : Screen} :
      Reachable board → screen.pixels.size = board.screen.pixels.size →
        Reachable { board with screen }
  | replaceIncidents {board : Board} (incidents : Incidents) :
      Reachable board → Reachable { board with incidents }
  | powerOn {board : Board} (settings : Settings) :
      Reachable board → Reachable (board.powerOn settings)
  | attachImages {board source : Board} :
      Reachable board → Reachable source → Reachable (board.attachImages source)
  /-- A snapshot of one board is restored over another one, whose images stay. -/
  | restore {saved host : Board} :
      Reachable saved → Reachable host → Reachable (saved.carriedTo host)

namespace Reachable

variable {board changed : Board}

theorem moves (reachable : board.Reachable) (moves : Moves board changed) : changed.Reachable := by
  induction moves with
  | refl => exact reachable
  | tail _ move ih => exact ih.move move

/-- Every access to a reachable board finds its cell. -/
theorem sized_supplied (reachable : board.Reachable) : board.Sized ∧ board.Supplied := by
  induction reachable with
  | initial settings =>
      have intact := intact_initial settings
      exact ⟨intact.sized, intact.supplied⟩
  | move _ move ih =>
      have same := move.sameFixtures
      exact ⟨ih.1.sameFixtures same, ih.2.sameFixtures same⟩
  | insertBios _ holds ih => exact ⟨{ ih.1 with }, { ih.2 with bios := ⟨_, _, holds⟩ }⟩
  | insertCartridge _ holds ih => exact ⟨{ ih.1 with }, { ih.2 with cartridge := ⟨_, _, holds⟩ }⟩
  | fillRam _ sized ih => exact ⟨{ ih.1 with ram := sized ▸ ih.1.ram }, { ih.2 with }⟩
  | writeBank _ written ih =>
      obtain ⟨applied, cells, -, sized, rfl⟩ := RegisterBank.of_write written
      exact ⟨{ ih.1 with registers := sized ▸ ih.1.registers }, { ih.2 with }⟩
  | tickBank _ ticked ih =>
      obtain ⟨seconds, -, rfl, -⟩ := RegisterBank.of_tick ticked
      exact ⟨{ ih.1 with }, { ih.2 with }⟩
  | clearBank _ ih =>
      have sized : RegisterBank.initial.cells.size = RegisterBank.size := Array.size_replicate
      exact ⟨{ ih.1 with registers := sized.ge }, { ih.2 with }⟩
  | replaceAudit _ sized ih => exact ⟨{ ih.1 with executed := sized ▸ ih.1.executed }, { ih.2 with }⟩
  | replaceScreen _ sized ih => exact ⟨{ ih.1 with pixels := sized ▸ ih.1.pixels }, { ih.2 with }⟩
  | replaceIncidents incidents _ ih => exact ⟨{ ih.1 with }, { ih.2 with }⟩
  | powerOn settings _ ih =>
      have sized := (intact_initial settings).sized
      obtain ⟨⟨_, _, bios⟩, ⟨_, _, cartridge⟩⟩ := ih.2
      exact ⟨{ sized with executed := sized.executed },
        ⟨⟨_, _, bios.clearTouched⟩, ⟨_, _, cartridge.clearTouched⟩⟩⟩
  | attachImages _ _ ih sourceIh => exact ⟨{ ih.1 with }, sourceIh.2.attachImages _⟩
  | restore _ _ ih hostIh => exact ⟨{ ih.1 with }, hostIh.2.attachImages _⟩

end Reachable

end Board

/-- The board of a reachable machine is a reachable board. -/
theorem Machine.Reached.board {σ : Type} [Core σ] {n : Nat} {machine : Machine σ}
    (reached : Reached n machine) : machine.board.Reachable := by
  induction reached with
  | start core settings =>
      rw [Machine.start, board_holdReset]
      exact .initial settings
  | loadBios _ _ loaded ih =>
      obtain ⟨bios, made, same⟩ := bind_eq_ok.mp loaded
      cases same
      exact ih.insertBios (Rom.holds_of_bios made)
  | loadCartridge _ loaded ih =>
      obtain ⟨cartridge, made, same⟩ := bind_eq_ok.mp loaded
      cases same
      exact ih.insertCartridge (Rom.holds_of_cartridge made)
  | setTable _ _ ih => exact ih.replaceAudit rfl
  | setKeys keys _ ih =>
      rw [board_setKeys]
      exact ih.move (.setKeys keys _)
  | setRunning running _ ih => exact ih
  | pokeRegister _ poked ih =>
      obtain ⟨⟨write, board⟩, written, same⟩ := bind_eq_ok.mp poked
      cases same
      exact ih.move (.writeRegister _ _ written)
  | raise _ done ih =>
      obtain ⟨⟨raised, registers⟩, raising, same⟩ := bind_eq_ok.mp done
      cases same
      exact ih.move (.raise _ _ raising)
  | present _ shown ih => exact ih.move (.present _ _ shown)
  | takeRedraw _ ih => exact ih.move (.takeRedraw _)
  | step _ stepped ih => exact ih.moves (moves_of_step stepped)
  | reset _ ih =>
      rw [Machine.reset, board_holdReset]
      exact ih.powerOn _
  | exchangeCore core _ ih => exact ih
  | restore _ savedReached restored ih savedIh =>
      rw [eq_of_restore_snapshot savedReached.intact restored]
      exact savedIh.restore ih

end Handheld
