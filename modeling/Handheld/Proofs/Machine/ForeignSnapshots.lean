/-
# Snapshots from anywhere

Restoring takes its bytes on trust. Whatever can be read as a board is taken over, with
memories of any size and counters at any number; only the images are the machine's own.
So a machine that has restored bytes of unknown origin may ask for a cell that is not
there, or count past the end of a word, where one from power-on never does.

What does hold is this. Bytes that cannot be read leave the machine alone. Otherwise
nothing but the board is exchanged, and the machine is as good as the board it has read:
with memories of their usual sizes at least, and with room in its counters, it goes on
without a fault. Nothing less will do for the sizes, and a snapshot of a machine with a
short history has all of it.
-/

import Handheld.Proofs.Board.Interrupts
import Handheld.Proofs.Machine.Handling
import Handheld.Proofs.Machine.Snapshot

namespace Handheld

open Checked

namespace Machine

variable {σ : Type} [Core σ]

/-- What so many operations lead to: a machine, or a fault of the last of them. They are
actions of the host, each run counted by its steps, and operations of the board. -/
inductive Continued (machine : Machine σ) : Nat → Checked (Machine σ) → Prop
  | refl : Continued machine 0 (.ok machine)
  | act {n : Nat} {middle : Machine σ} (action : Action σ) (fits : action.Fits) :
      Continued machine n (.ok middle) →
        Continued machine (n + middle.cost action) (middle.perform action)
  | onBoard {n : Nat} {middle : Machine σ} (operation : Board.Operation) :
      Continued machine n (.ok middle) →
        Continued machine (n + 1)
          ((middle.board.perform operation).map fun board => { middle with board })

/-- The machines that can be reached from power-on, with bytes of any origin restored in
between. -/
inductive Attainable : Machine σ → Prop
  | start (core : σ) (settings : Settings) : Attainable (start core settings)
  | continued {machine after : Machine σ} {n : Nat} :
      Attainable machine → Continued machine n (.ok after) → Attainable after
  | restore {machine after : Machine σ} (bytes : List UInt8) :
      Attainable machine → machine.restore bytes = .ok after → Attainable after

end Machine

namespace Board

variable {board other : Board}

theorem Supplied.handled {settings : Settings} (supplied : board.Supplied)
    (handled : Handled settings board other) : other.Supplied := by
  cases handled with
  | moves moves => exact supplied.sameFixtures (sameFixtures_of_moves moves)
  | bios fits made => exact { supplied with bios := ⟨_, _, Rom.holds_of_bios made⟩ }
  | cartridge made => exact { supplied with cartridge := ⟨_, _, Rom.holds_of_cartridge made⟩ }
  | setTable fits => exact { supplied with }
  | powerOn =>
      obtain ⟨⟨_, _, bios⟩, ⟨_, _, cartridge⟩⟩ := supplied
      exact ⟨⟨_, _, bios.clearTouched⟩, ⟨_, _, cartridge.clearTouched⟩⟩

end Board

namespace Machine

variable {σ : Type} {machine restored : Machine σ} {bytes : List UInt8}

/-- What is restored is a board that was read, with the images of the machine. -/
theorem of_restore (done : machine.restore bytes = .ok restored) :
    ∃ board, Wire.decode bytes = .ok board ∧
      restored = { machine with board := Board.attachImages board machine.board } := by
  obtain ⟨board, decoded, same⟩ := bind_eq_ok.mp done
  cases same
  exact ⟨board, decoded, rfl⟩

/-- Bytes are refused only because they cannot be read. -/
theorem of_restore_error {refusal : Error} (refused : machine.restore bytes = .error refusal) :
    ∃ failure, refusal = .snapshot failure := by
  cases decoded : (Wire.decode bytes : Except Error Board) with
  | ok board =>
      rw [restore, decoded] at refused
      cases refused
  | error failure =>
      rw [restore, decoded] at refused
      cases refused
      unfold Wire.decode at decoded
      split at decoded
      · cases decoded
      · rename_i cause _
        cases decoded
        exact ⟨cause, rfl⟩

variable [Core σ]

theorem Continued.supplied {n : Nat} {outcome : Checked (Machine σ)}
    (continued : Continued machine n outcome) (supplied : machine.board.Supplied)
    (after : Machine σ) (done : outcome = .ok after) : after.board.Supplied := by
  induction continued generalizing after with
  | refl =>
      cases done
      exact supplied
  | act action fits _ ih => exact (ih _ rfl).handled (handled_of_perform fits done)
  | onBoard operation _ ih =>
      obtain ⟨board, performed, rfl⟩ := of_map_eq_ok done
      exact (ih _ rfl).sameFixtures (Board.move_of_perform performed).sameFixtures

/-- Whatever has been restored, the sockets hold images. -/
theorem Attainable.supplied (attainable : machine.Attainable) : machine.board.Supplied := by
  induction attainable with
  | start core settings => exact (aged_start core settings).bounded.intact.supplied
  | continued _ continued ih => exact continued.supplied ih _ rfl
  | restore bytes _ restored ih =>
      obtain ⟨board, -, rfl⟩ := of_restore restored
      exact ih.attachImages board

end Machine

namespace Board

/-- The counters have room for what so many operations may add to them. A step is eleven
moves at most, and an opcode disagrees at most once in it. -/
structure RoomFor (board : Board) (operations : Nat) : Prop where
  spare : board.Spare (11 * operations)
  discrepancies : ∀ opcode,
    (board.audit.discrepancies.get opcode).toNat + operations < 2 ^ 32

/-- At power-on there is room for all that 32 bits can count. -/
theorem Supplied.ready_powerOn {board : Board} (supplied : board.Supplied) (settings : Settings)
    {moves : Nat} (few : moves < 2 ^ 36) : (board.powerOn settings).Ready moves := by
  have fresh : (initial settings).Ready moves := (bounded_initial settings).ready (by omega)
  have counts (counter : Counter) :
      (board.powerOn settings).count counter = (initial settings).count counter := by
    cases counter <;> rfl
  exact
    { sized := { fresh.sized with executed := Array.size_replicate.ge }
      supplied := supplied.handled (.powerOn : Handled settings board _)
      spare := fresh.spare.congr counts rfl rfl }

/-- Only a step enters anything into the books. -/
theorem audit_of_perform {board after : Board} {operation : Operation}
    (performed : board.perform operation = .ok after) : after.audit = board.audit := by
  cases operation with
  | latchEdges probes =>
      obtain ⟨⟨edges, _⟩, done, rfl⟩ := of_map_eq_ok performed
      obtain ⟨cells, -, rfl⟩ := of_latchEdges done
      rfl
  | raise offset mask =>
      obtain ⟨_, -, rfl⟩ := of_map_eq_ok performed
      rfl
  | store bus =>
      obtain ⟨⟨report, _⟩, done, rfl⟩ := of_map_eq_ok performed
      obtain ⟨ram, registers, incidents, -, -, rfl⟩ := of_store done
      rfl
  | writeRegister offset data =>
      obtain ⟨⟨report, _⟩, done, rfl⟩ := of_map_eq_ok performed
      obtain ⟨registers, incidents, -, -, rfl⟩ := of_writeRegister done
      rfl
  | fetch bus codeBank =>
      obtain ⟨⟨report, _⟩, done, rfl⟩ := of_map_eq_ok performed
      obtain ⟨bios, cartridge, incidents, -, -, rfl⟩ := of_fetch done
      rfl
  | tickRegisters settings =>
      obtain ⟨⟨tick, _⟩, done, rfl⟩ := of_map_eq_ok performed
      obtain ⟨registers, -, rfl⟩ := of_tickRegisters done
      rfl
  | halfCycle =>
      obtain ⟨⟨toggled, _⟩, done, rfl⟩ := of_map_eq_ok performed
      obtain ⟨oscillator, -, -, rfl⟩ := of_halfCycle done
      rfl
  | setKeys keys =>
      cases performed
      rfl
  | present memory contrast =>
      obtain ⟨⟨presentation, _⟩, done, rfl⟩ := of_map_eq_ok performed
      obtain ⟨ram, screen, -, -, -, rfl⟩ := of_present done
      rfl

/-- The board can take so many more actions, with so many steps among them. -/
structure Enduring (actions steps : Nat) (board : Board) : Prop where
  ready : board.Ready (11 * actions)
  few : actions < 2 ^ 32
  discrepancies : ∀ opcode, (board.audit.discrepancies.get opcode).toNat + steps < 2 ^ 32

theorem Enduring.withImages {board : Board} {actions steps : Nat}
    (enduring : board.Enduring actions steps) {bios cartridge : Rom}
    (supplied : { board with bios, cartridge }.Supplied) :
    { board with bios, cartridge }.Enduring actions steps :=
  { enduring with
    ready :=
      { sized := { enduring.ready.sized with }
        supplied
        spare := enduring.ready.spare.congr (by rintro ⟨⟩ <;> rfl) rfl rfl } }

end Board

namespace Machine

variable {σ : Type} [Core σ] {machine : Machine σ}

/-- A machine whose board is ready for eleven moves an action can go on. -/
theorem stamina_enduring : Stamina σ Board.Enduring where
  mono enduring fewerLe lessLe :=
    { ready := enduring.ready.mono (Nat.mul_le_mul_left 11 fewerLe)
      few := fewerLe.trans_lt enduring.few
      discrepancies := fun opcode =>
        (Nat.add_le_add_left lessLe _).trans_lt (enduring.discrepancies opcode) }
  ready enduring := enduring.ready.mono (by omega)
  move {actions} _ _ _ enduring moved sameBooks _ :=
    { ready := (enduring.ready.mono (Nat.le_add_right (11 * actions + 1) 10)).move moved
      few := Nat.lt_of_succ_lt enduring.few
      discrepancies := sameBooks ▸ enduring.discrepancies }
  step {actions steps machine} enduring := by
    have room (opcode : UInt16) :
        (machine.board.audit.discrepancies.get opcode).toNat + 1 < 2 ^ 32 := by
      have := enduring.discrepancies opcode
      omega
    obtain ⟨result, stepped, ready⟩ := step_reserve Board.reserve_ready enduring.ready room
    refine ⟨result, stepped, ready, Nat.lt_of_succ_lt enduring.few, fun opcode => ?_⟩
    have counted := discrepancies_of_step stepped opcode
    have := enduring.discrepancies opcode
    omega
  bios enduring filled :=
    let ⟨_, _, held⟩ := filled
    enduring.withImages { enduring.ready.supplied with bios := ⟨_, _, held⟩ }
  cartridge enduring filled :=
    let ⟨_, _, held⟩ := filled
    enduring.withImages { enduring.ready.supplied with cartridge := ⟨_, _, held⟩ }
  setTable enduring _ :=
    { enduring with
      ready :=
        { sized := { enduring.ready.sized with }
          supplied := { enduring.ready.supplied with }
          spare := enduring.ready.spare.congr (by rintro ⟨⟩ <;> rfl) rfl rfl } }
  powerOn {actions steps} _ settings enduring := by
    have few := enduring.few
    refine ⟨enduring.ready.supplied.ready_powerOn settings (by omega), few, fun _ => ?_⟩
    show 0 + steps < 2 ^ 32
    have := enduring.discrepancies 0
    omega

/-- With room for the operations, none of them runs into a fault. -/
theorem Continued.enduring {n : Nat} {outcome : Checked (Machine σ)}
    (continued : Continued machine n outcome) {left : Nat}
    (enduring : machine.board.Enduring (n + left) (n + left)) :
    ∃ after, outcome = .ok after ∧ after.board.Enduring left left := by
  have stamina : Stamina σ Board.Enduring := stamina_enduring
  induction continued generalizing left with
  | refl =>
      rw [Nat.zero_add] at enduring
      exact ⟨machine, rfl, enduring⟩
  | @act n middle action fits _ ih =>
      rw [Nat.add_assoc] at enduring
      obtain ⟨_, ⟨⟩, middleEnduring⟩ := ih enduring
      rw [Nat.add_comm] at middleEnduring
      have within := Nat.add_le_add_left (middle.pace_le_cost action) left
      exact perform_stamina stamina fits (stamina.mono middleEnduring le_rfl within)
  | @onBoard n middle operation _ ih =>
      rw [Nat.add_assoc, Nat.add_comm 1] at enduring
      obtain ⟨_, ⟨⟩, middleEnduring⟩ := ih enduring
      have ready := middleEnduring.ready.mono (Nat.le_add_right (11 * left + 1) 10)
      obtain ⟨board, performed⟩ :=
        (stamina.ready middleEnduring).perform_succeeds operation
      refine ⟨{ middle with board }, congrArg (Except.map _) performed, ?_⟩
      exact
        { ready := ready.move (Board.move_of_perform performed)
          few := Nat.lt_of_succ_lt middleEnduring.few
          discrepancies := fun opcode => by
            rw [Board.audit_of_perform performed]
            exact Nat.lt_of_succ_lt (middleEnduring.discrepancies opcode) }

end Machine

namespace Board

variable {board : Board}

/-- Nothing that a board is asked for lies outside its memories: neither on the bus, nor
in a frame, nor in the book of executed opcodes. -/
structure Complete (board : Board) : Prop where
  view : ∀ address, board.view address ≠ .error .outOfBounds
  present : ∀ memory contrast, board.present memory contrast ≠ .error .outOfBounds
  executed : ∀ opcode, board.audit.isExecuted opcode ≠ .error .outOfBounds

theorem Sized.complete (sized : board.Sized) (supplied : board.Supplied) : board.Complete where
  view address := (sized.view_succeeds supplied address).ne_error _
  present memory contrast := by
    -- A frame may still be one too many to count.
    have shows (planar : Array UInt8) (level : UInt8) :
        board.screen.present planar level ≠ .error .outOfBounds := by
      apply bind_ne_error ((paint_succeeds planar level _ sized.pixels).ne_error _)
      intro _ _
      exact bind_ne_error (add64_ne_outOfBounds _ _) fun _ _ => nofun
    cases memory with
    | some planar =>
        refine bind_ne_error (Succeeds.ne_error (.ok (planar, board.ram)) _) ?_
        rintro - ⟨⟩
        exact bind_ne_error (shows planar _) fun _ _ => nofun
    | none =>
        apply bind_ne_error ((board.registers.refresh.compose_succeeds sized.ram).ne_error _)
        rintro ⟨planar, ram⟩ -
        exact bind_ne_error (shows planar _) fun _ _ => nofun
  executed opcode := by
    unfold Audit.isExecuted
    split
    · have room := sized.executed
      have inside : opcode.toNat / 64 < board.audit.executed.size := by omega
      exact Succeeds.ne_error ⟨_, Bitmap.contains_eq inside⟩ _
    · exact nofun

/-- Each memory is asked for its last cell. -/
theorem Complete.sized (complete : board.Complete) : board.Sized := by
  constructor
  · by_contra short
    apply complete.view 0x1FFF
    exact Cells.get_eq_error (Nat.le_of_lt_succ (Nat.not_le.mp short))
  · by_contra short
    apply complete.view 0x20FF
    exact Cells.get_eq_error (Nat.le_of_lt_succ (Nat.not_le.mp short))
  · by_contra short
    apply complete.executed 0x2FF
    have missing : Cells.get board.audit.executed 11 = .error .outOfBounds :=
      Cells.get_eq_error (Nat.le_of_lt_succ (Nat.not_le.mp short))
    show (Cells.get board.audit.executed 11 >>= _) = _
    rw [missing]
    rfl
  · by_contra short
    apply complete.present (some #[]) none
    have missing := paint_eq_error #[] board.registers.lcd.contrast board.screen.orientation
      (Nat.not_le.mp short)
    simp only [Board.present, Screen.present, Option.getD_none, ok_bind, missing]
    rfl

end Board

/-! ## Restoring -/

namespace Board

theorem RoomFor.enduring {board : Board} {n : Nat} (room : board.RoomFor n) (sized : board.Sized)
    (supplied : board.Supplied) : board.Enduring (n + 0) (n + 0) where
  ready := ⟨sized, supplied, room.spare⟩
  few := Nat.lt_of_le_of_lt (Nat.le_add_left _ _) (room.discrepancies 0)
  discrepancies := room.discrepancies

/-- A board that is carried elsewhere has the memories and the counters it had. -/
theorem Aged.roomFor {board host : Board} {bound age n : Nat} (aged : board.Aged bound age)
    (room : bound + 99 * n < 2 ^ 62) (young : age + n < 2 ^ 32) :
    (board.carriedTo host).Sized ∧ (board.carriedTo host).RoomFor n := by
  have ready : board.Ready (11 * n) := aged.bounded.ready (by omega)
  refine ⟨{ ready.sized with }, ready.spare.congr (by rintro ⟨⟩ <;> rfl) rfl rfl, fun opcode => ?_⟩
  have few := aged.discrepancies opcode
  exact Nat.lt_of_le_of_lt (Nat.add_le_add_right few n) young

end Board

namespace Machine

variable {σ : Type}

/-- Saving is refused only where the buffer is too small. -/
theorem save_succeeds (machine : Machine σ) {buffer : List UInt8}
    (room : machine.snapshotSize ≤ buffer.length) : Succeeds (machine.save buffer) :=
  ⟨_, if_pos room⟩

variable [Core σ]

/-- Restoring any bytes in any machine is refused, and then changes nothing, or exchanges
the board but for its images. The memories are then complete exactly if they have their
sizes. If so, the machine goes on without a fault for as many operations as its counters
have room for, and can be saved again. This is what a snapshot of a machine with a short
history leads to. -/
theorem foreign_restore_law {machine : Machine σ} (attainable : machine.Attainable)
    (bytes : List UInt8) :
    (∃ failure, machine.restore bytes = .error (.snapshot failure) ∧
      machine.accept (machine.restore bytes) = machine) ∨
    ∃ restored, machine.restore bytes = .ok restored ∧
      restored = { machine with board := restored.board } ∧
      restored.board.bios.SameBytes machine.board.bios ∧
      restored.board.cartridge.SameBytes machine.board.cartridge ∧
      (restored.board.Sized ↔ restored.board.Complete) ∧
      (restored.board.Sized → ∀ n, restored.board.RoomFor n → ∀ outcome,
        Continued restored n outcome → ∃ after, outcome = .ok after ∧
          ∀ buffer, after.snapshotSize ≤ buffer.length → Succeeds (after.save buffer)) ∧
      ∀ {τ : Type} [Core τ] (saved : Machine τ) (k n : Nat), History k (.ok saved) →
        saved.IsSnapshot bytes → k + n < 2 ^ 32 →
          restored.board.Sized ∧ restored.board.RoomFor n := by
  cases done : machine.restore bytes with
  | error refusal =>
      obtain ⟨failure, rfl⟩ := of_restore_error done
      exact .inl ⟨failure, rfl, rfl⟩
  | ok restored =>
      right
      obtain ⟨board, decoded, rfl⟩ := of_restore done
      have supplied := attainable.supplied.attachImages board
      refine ⟨_, rfl, rfl, Rom.sameBytes_attach _ _, Rom.sameBytes_attach _ _,
        ⟨fun sized => sized.complete supplied, Board.Complete.sized⟩, ?_, ?_⟩
      · intro sized n room outcome continued
        obtain ⟨after, done, -⟩ := continued.enduring (room.enduring sized supplied)
        exact ⟨after, done, fun buffer => after.save_succeeds⟩
      · intro τ _ saved k n history written short
        obtain ⟨_, ⟨⟩, aged⟩ := history.aged (by omega)
        rw [restore_eq_carriedTo aged.bounded.intact written] at done
        have same := congrArg Machine.board (Except.ok.inj done)
        exact same ▸ aged.roomFor (by omega) short

/-- A machine that restores a snapshot of one that has taken a step goes on for almost as
long as that one would. -/
theorem foreign_restore_law_stepped :
    let host : Machine ScriptedCore := start {} {}
    host.Attainable ∧ ∃ saved restored : Machine ScriptedCore, History 1 (.ok saved) ∧
      host.restore saved.snapshot = .ok restored ∧ restored.board.Complete ∧
      ∀ n outcome, 1 + n < 2 ^ 32 → Continued restored n outcome →
        ∃ after, outcome = .ok after := by
  intro host
  have attainable : host.Attainable := .start _ _
  have stepping : History 1 (host.perform .step) := .act .step trivial (.start _ _)
  obtain ⟨saved, done, aged⟩ := stepping.aged (by decide)
  rw [done] at stepping
  have written := saved.isSnapshot_snapshot
  rcases foreign_restore_law attainable saved.snapshot with
    ⟨failure, refused, -⟩ | ⟨restored, restores, -, -, -, complete, goesOn, genuine⟩
  · rw [restore_eq_carriedTo aged.bounded.intact written] at refused
    cases refused
  · have sound (n : Nat) (short : 1 + n < 2 ^ 32) := genuine saved 1 n stepping written short
    refine ⟨attainable, saved, restored, stepping, restores,
      complete.mp (sound 0 (by decide)).1, ?_⟩
    intro n outcome short continued
    obtain ⟨sized, room⟩ := sound n short
    obtain ⟨after, reached, -⟩ := goesOn sized n room outcome continued
    exact ⟨after, reached⟩

/-- Forty-one zeroes are read as a board without any memory. They are accepted, and the
first read of working memory is out of bounds, by the host and over the bus. -/
theorem restore_zeros_lacks_memory :
    let machine : Machine ScriptedCore := start {} {}
    machine.Attainable ∧ ∃ restored, machine.restore (.replicate 41 0) = .ok restored ∧
      restored.perform (.view 0x1000) = .error .outOfBounds ∧
      restored.board.perform (.fetch (.read 0x1000) 0) = .error .outOfBounds :=
  ⟨.start _ _, _, rfl, rfl, rfl⟩

end Machine

end Handheld
