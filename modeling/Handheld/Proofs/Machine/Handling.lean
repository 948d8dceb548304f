/-
# What hosts do to a board

Whatever a host does, its board either makes moves, or is given an image or a cycle
table, or goes back to power-on. What all of these keep is kept by every history,
however long it is and whether or not the machine has halted in it: the board stays
intact, and the sockets hold images that could be put into them again.
-/

import Handheld.Proofs.Machine.Histories

namespace Handheld

open Checked

namespace Board

/-- What becomes of a board by an action of the host. -/
inductive Handled (settings : Settings) (board : Board) : Board → Prop
  | moves {after : Board} : Moves board after → Handled settings board after
  | bios {image : Array UInt8} {bios : Rom} (fits : image.size < hostLimit) :
      Rom.bios image = .ok bios → Handled settings board { board with bios }
  | cartridge {image : Array UInt8} {cartridge : Rom} :
      Rom.cartridge image = .ok cartridge → Handled settings board { board with cartridge }
  | setTable {table : CycleTable} (fits : table.entries.size < hostLimit) :
      Handled settings board (board.setTable table)
  | powerOn : Handled settings board (board.powerOn settings)

end Board

namespace Machine

variable {σ : Type} [Core σ] {machine after : Machine σ}

theorem moves_of_run {n : Nat} {overflow : Option StackOverflow}
    (ran : machine.run n = .ok (overflow, after)) : Board.Moves machine.board after.board := by
  refine run_invariant (fun reached => Board.Moves machine.board reached.board) ?_ .refl ran
  intro before result moves stepped
  exact moves.trans (moves_of_step stepped)

/-- Every action of a host is one of these. -/
theorem handled_of_perform {action : Action σ} (fits : action.Fits)
    (performed : machine.perform action = .ok after) :
    Board.Handled machine.settings machine.board after.board := by
  cases action with
  | loadBios image =>
      cases performed
      cases loaded : machine.loadBios image with
      | error refusal => exact .moves .refl
      | ok loadedMachine =>
          obtain ⟨bios, made, same⟩ := bind_eq_ok.mp loaded
          cases same
          exact .bios fits made
  | loadCartridge image =>
      cases performed
      cases loaded : machine.loadCartridge image with
      | error refusal => exact .moves .refl
      | ok loadedMachine =>
          obtain ⟨cartridge, made, same⟩ := bind_eq_ok.mp loaded
          cases same
          exact .cartridge made
  | setTable table =>
      cases performed
      exact .setTable fits
  | setKeys keys =>
      cases performed
      rw [board_setKeys]
      exact .moves (.single (.setKeys keys _))
  | setRunning running | exchangeCore core =>
      cases performed
      exact .moves .refl
  | pokeRegister offset data =>
      obtain ⟨⟨write, poked⟩, done, rfl⟩ := of_map_eq_ok performed
      obtain ⟨⟨report, board⟩, written, same⟩ := bind_eq_ok.mp done
      cases same
      exact .moves (.single (.writeRegister _ _ written))
  | raise offset mask =>
      obtain ⟨⟨raised, raisedMachine⟩, done, rfl⟩ := of_map_eq_ok performed
      obtain ⟨⟨report, registers⟩, raising, same⟩ := bind_eq_ok.mp done
      cases same
      exact .moves (.single (.raise _ _ raising))
  | peekRegister offset | view address | coverage =>
      obtain ⟨_, -, rfl⟩ := of_map_eq_ok performed
      exact .moves .refl
  | takeRedraw =>
      cases performed
      exact .moves (.single (.takeRedraw _))
  | step =>
      obtain ⟨result, stepped, rfl⟩ := of_map_eq_ok performed
      exact .moves (moves_of_step stepped)
  | run budget =>
      obtain ⟨⟨overflow, last⟩, ran, rfl⟩ := of_map_eq_ok performed
      exact .moves (moves_of_run ran)
  | runFrame =>
      rw [perform, runFrame_eq] at performed
      obtain ⟨shown, mapped, rfl⟩ := of_map_eq_ok performed
      obtain ⟨⟨overflow, last⟩, ran, rfl⟩ := of_map_eq_ok mapped
      exact .moves (moves_of_run ran)
  | reset =>
      cases performed
      rw [reset, board_holdReset]
      exact .powerOn

end Machine

/-- The socket holds an image that is small enough for a cartridge. -/
def Rom.HoldsCartridge (rom : Rom) : Prop :=
  ∃ image : Array UInt8, image.size ≤ Rom.cartridgeLimit ∧ rom.Holds .cartridge image

namespace Board

/-- An intact board whose cartridge is one that the socket accepts. -/
structure Stocked (board : Board) : Prop extends board.Intact where
  accepted : board.cartridge.HoldsCartridge

variable {board other : Board} {settings : Settings}

theorem stocked_initial (settings : Settings) : (initial settings).Stocked :=
  { intact_initial settings with
    accepted := ⟨#[], by decide, Rom.empty_holds _⟩ }

theorem Stocked.handled (stocked : board.Stocked) (handled : Handled settings board other) :
    other.Stocked := by
  obtain ⟨image, small, holds⟩ := stocked.accepted
  cases handled with
  | moves moves =>
      have same := sameFixtures_of_moves moves
      exact
        { stocked.toIntact.sameFixtures same with
          accepted := ⟨image, small, holds.sameImage same.cartridge⟩ }
  | bios fits made => exact { stocked with bios := Rom.filled_of_bios fits made }
  | @cartridge image _ made =>
      exact
        { stocked with
          cartridge := Rom.filled_of_cartridge made
          accepted := ⟨image, (Rom.of_cartridge made).1, Rom.holds_of_cartridge made⟩ }
  | setTable fits => exact { stocked with table := fits }
  | powerOn =>
      exact
        { stocked.toIntact.powerOn settings with
          accepted := ⟨image, small, holds.clearTouched⟩ }

theorem Stocked.carriedTo (stocked : board.Stocked) (host : other.Stocked) :
    (board.carriedTo other).Stocked := by
  obtain ⟨image, small, holds⟩ := host.accepted
  have attached := holds.attach { board.cartridge with buffer := #[] }
  rw [stocked.cartridge.kind_eq] at attached
  exact
    { stocked.toIntact.carriedTo host.toIntact with
      accepted := ⟨image, small, attached⟩ }

end Board

/-- Every history leaves a stocked board, if it leaves a machine at all. -/
theorem Machine.History.stocked {σ : Type} [Core σ] {n : Nat} {outcome : Checked (Machine σ)}
    (history : History n outcome) (machine : Machine σ) (done : outcome = .ok machine) :
    machine.board.Stocked := by
  induction history with
  | start core settings =>
      cases done
      rw [Machine.start, board_holdReset]
      exact Board.stocked_initial settings
  | act action fits _ ih => exact (ih _ rfl).handled (handled_of_perform fits done)
  | restore _ _ written ih savedIh =>
      rw [restore_eq_carriedTo (savedIh _ rfl).toIntact written] at done
      cases done
      exact (savedIh _ rfl).carriedTo (ih _ rfl)

end Handheld
