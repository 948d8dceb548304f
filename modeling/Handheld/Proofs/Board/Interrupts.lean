/-
# Interrupt latches under any operations

An interrupt is pending when it was raised and not acknowledged since. The latches
of a board show exactly the pending interrupts, in whatever order its operations
come: none is lost and none appears by itself.

Raises come from the host, and, in the first latch only, from rising edges of two
lines of the core. Acknowledges are writes to a latch, over the bus or from
outside. What is pending is read off the list of operations, without regard to
any state of the board.
-/

import Handheld.Proofs.Board.Memory
import Handheld.Proofs.Register.History

namespace Handheld

open Checked

namespace Board

/-- Something that is done with a board. -/
inductive Operation
  | latchEdges (probes : Probes)
  | raise (offset mask : UInt8)
  | store (bus : Transaction)
  | writeRegister (offset data : UInt8)
  | fetch (bus : Transaction) (codeBank : UInt8)
  | tickRegisters (settings : Settings)
  | halfCycle
  | setKeys (keys : Keys)
  | present (memory : Option (Array UInt8)) (contrast : Option UInt8)

/-- Carry out an operation. What it reports is left out. -/
def perform (board : Board) : Operation → Checked Board
  | .latchEdges probes => (board.latchEdges probes).map Prod.snd
  | .raise offset mask =>
    (board.registers.raise offset mask).map fun (_, registers) => { board with registers }
  | .store bus => (board.store bus).map Prod.snd
  | .writeRegister offset data => (board.writeRegister offset data).map Prod.snd
  | .fetch bus codeBank => (board.fetch bus codeBank).map Prod.snd
  | .tickRegisters settings => (board.tickRegisters settings).map Prod.snd
  | .halfCycle => board.halfCycle.map Prod.snd
  | .setKeys keys => .ok (board.setKeys keys)
  | .present memory contrast => (board.present memory contrast).map Prod.snd

/-- Carry out operations, the first one first. -/
def performAll (board : Board) (operations : List Operation) : Checked Board :=
  operations.foldlM perform board

namespace Operation

/-- The lines that an operation samples. -/
def sampled : Operation → Option Probes
  | .latchEdges probes => some probes
  | _ => none

/-- The lines as they were sampled last, which are low before the first time. -/
def lastSample (operations : List Operation) : Probes :=
  (operations.filterMap sampled).getLastD {}

/-- The operation raises an interrupt, given the operations before it. -/
def Raises (earlier : List Operation) (offset : UInt8) (bit : Nat) : Operation → Prop
  | .raise target mask => target = offset ∧ mask.toNat.testBit bit = true
  | .latchEdges probes => offset = Register.irqAct1 ∧
    (bit = 6 ∧ probes.irqRenderDone = true ∧ (lastSample earlier).irqRenderDone = false ∨
      bit = 7 ∧ probes.irqCopyComplete = true ∧ (lastSample earlier).irqCopyComplete = false)
  | _ => False

/-- The operation writes a one to the bit of an interrupt. -/
def Acknowledges (offset : UInt8) (bit : Nat) : Operation → Prop
  | .writeRegister target data => target = offset ∧ data.toNat.testBit bit = true
  | .store bus => lineOf bus.address = 0x2000 + offset.toNat ∧ bus.data.toNat.testBit bit = true
  | _ => False

/-- Some operation has raised the interrupt, and none since has acknowledged it. -/
def Pending (operations : List Operation) (offset : UInt8) (bit : Nat) : Prop :=
  ∃ before operation after, operations = before ++ operation :: after ∧
    operation.Raises before offset bit ∧ ∀ later ∈ after, ¬ later.Acknowledges offset bit

variable {offset : UInt8} {bit : Nat}

theorem not_pending_nil : ¬ Pending [] offset bit := by
  rintro ⟨before, operation, after, split, -⟩
  exact List.append_ne_nil_of_right_ne_nil before (List.cons_ne_nil operation after) split.symm

/-- What one more operation does to a pending interrupt. -/
theorem pending_append_singleton (earlier : List Operation) (operation : Operation) :
    Pending (earlier ++ [operation]) offset bit ↔
      operation.Raises earlier offset bit ∨
        Pending earlier offset bit ∧ ¬ operation.Acknowledges offset bit := by
  constructor
  · rintro ⟨before, raising, after, split, raises, unacknowledged⟩
    rcases List.eq_nil_or_concat after with rfl | ⟨middle, last, rfl⟩
    · obtain ⟨rfl, same⟩ := List.append_inj' split rfl
      cases same
      exact .inl raises
    · rw [List.concat_eq_append, ← List.cons_append, ← List.append_assoc] at split
      obtain ⟨rfl, same⟩ := List.append_inj' split rfl
      cases same
      refine .inr ⟨⟨before, raising, middle, rfl, raises, ?_⟩, ?_⟩
      · intro later isLater
        apply unacknowledged
        rw [List.concat_eq_append]
        exact List.mem_append_left _ isLater
      · apply unacknowledged
        rw [List.concat_eq_append]
        exact List.mem_append_right _ (List.mem_singleton_self _)
  · rintro (raises | ⟨⟨before, raising, after, rfl, raises, unacknowledged⟩, kept⟩)
    · exact ⟨earlier, operation, [], rfl, raises, fun _ isLater => absurd isLater List.not_mem_nil⟩
    · refine ⟨before, raising, after ++ [operation], ?_, raises, ?_⟩
      · rw [List.append_assoc, List.cons_append]
      · intro later isLater
        rcases List.mem_append.mp isLater with isLater | isLater
        · exact unacknowledged later isLater
        · cases List.mem_singleton.mp isLater
          exact kept

theorem lastSample_append_singleton (earlier : List Operation) (operation : Operation) :
    lastSample (earlier ++ [operation]) = operation.sampled.getD (lastSample earlier) :=
  getLastD_filterMap_concat _ _ _ _

end Operation

end Board

namespace Interrupt

/-- A bit is latched after an acknowledge if it was, and its bit of the mask is zero. -/
theorem testBit_acknowledge (latched mask : UInt8) (bit : Nat) :
    (acknowledge latched mask).toNat.testBit bit =
      (latched.toNat.testBit bit && !mask.toNat.testBit bit) := by
  have complement : (~~~mask).toNat = 2 ^ 8 - (mask.toNat + 1) := by
    rw [UInt8.toNat_not, UInt8.size]
    omega
  rw [acknowledge, UInt8.toNat_and, Nat.testBit_and, complement,
    Nat.testBit_two_pow_sub_succ mask.toNat_lt]
  by_cases inside : bit < 8
  · simp [inside]
  · simp [testBit_byte_eq_false latched (Nat.not_lt.mp inside)]

theorem testBit_raise (latched mask : UInt8) (bit : Nat) :
    (raise latched mask).toNat.testBit bit =
      (latched.toNat.testBit bit || mask.toNat.testBit bit) := by
  rw [raise, UInt8.toNat_or, Nat.testBit_or]

end Interrupt

/-- There are four interrupt latches. -/
theorem Register.role_eq_interruptLatch_iff (offset : UInt8) :
    role offset = .interruptLatch ↔ 0x27 ≤ offset ∧ offset ≤ 0x2A := by
  simp only [UInt8.le_iff_toNat_le, UInt8.reduceToNat]
  unfold role
  split
  case h_17 =>
    refine iff_of_false ?_ ?_
    · split
      · nofun
      · split <;> nofun
    · rintro ⟨above, below⟩
      simp only [imp_false] at *
      omega
  all_goals
    rename_i value
    simp [value]

namespace RegisterBank

variable {bank changed : RegisterBank} {offset : UInt8} {P Q : Nat → Prop}

/-- The latch at an offset has exactly those bits set of which `P` holds. -/
def Latched (bank : RegisterBank) (offset : UInt8) (P : Nat → Prop) : Prop :=
  ∃ byte, Cells.get bank.cells offset.toNat = .ok byte ∧
    ∀ bit, byte.toNat.testBit bit = true ↔ P bit

theorem Latched.congr (latched : bank.Latched offset P) (same : ∀ bit, P bit ↔ Q bit) :
    bank.Latched offset Q := by
  obtain ⟨byte, held, shows⟩ := latched
  exact ⟨byte, held, fun bit => (shows bit).trans (same bit)⟩

/-- A latch is a stored byte and depends on nothing else. -/
theorem Latched.sameCells (latched : bank.Latched offset P) (same : changed.cells = bank.cells) :
    changed.Latched offset P := by
  unfold Latched
  rw [same]
  exact latched

theorem latched_initial (offset : UInt8) : initial.Latched offset fun _ => False := by
  refine ⟨0, Cells.get_replicate offset.toNat_lt, fun bit => ?_⟩
  simp

variable (latched : bank.Latched offset P)
  (isLatch : Register.role offset = .interruptLatch)
include latched isLatch

theorem Latched.read :
    ∃ byte, bank.read offset = .ok byte ∧ ∀ bit, byte.toNat.testBit bit = true ↔ P bit := by
  unfold RegisterBank.read
  rw [isLatch]
  exact latched

/-- A write to a latch acknowledges, and no other write reaches it. -/
theorem Latched.write {target data : UInt8} {report : RegisterWrite}
    (written : bank.write target data = .ok (report, changed)) :
    changed.Latched offset fun bit =>
      P bit ∧ ¬ (target = offset ∧ data.toNat.testBit bit = true) := by
  obtain ⟨byte, held, shows⟩ := latched
  have cell := get_of_write written offset
  by_cases here : target = offset
  · subst here
    obtain ⟨applied, cells, first, -, -⟩ := of_write written
    unfold applyWrite at first
    simp only [isLatch, held, ok_bind] at first
    cases first
    refine ⟨Interrupt.acknowledge byte data, cell.trans (if_pos rfl), fun bit => ?_⟩
    rw [Interrupt.testBit_acknowledge, Bool.and_eq_true, shows bit]
    simp
  · rw [if_neg here, held] at cell
    refine ⟨byte, cell, fun bit => ?_⟩
    simp [here, shows bit]

theorem Latched.raise {target mask : UInt8} {raised : Bool}
    (done : bank.raise target mask = .ok (raised, changed)) :
    changed.Latched offset fun bit =>
      (target = offset ∧ mask.toNat.testBit bit = true) ∨ P bit := by
  obtain ⟨byte, held, shows⟩ := latched
  by_cases here : target = offset
  · subst here
    unfold RegisterBank.raise at done
    simp only [isLatch, held, ok_bind] at done
    obtain ⟨cells, set, same⟩ := bind_eq_ok.mp done
    cases same
    refine ⟨Interrupt.raise byte mask, ?_, fun bit => ?_⟩
    · rw [Cells.get_of_set set, if_pos rfl]
    · rw [Interrupt.testBit_raise, Bool.or_eq_true, shows bit, or_comm]
      simp
  · have elsewhere : offset.toNat ≠ target.toNat := fun same => here (UInt8.toNat.inj same).symm
    have kept : Cells.get changed.cells offset.toNat = .ok byte := by
      unfold RegisterBank.raise at done
      split at done
      · obtain ⟨before, -, rest⟩ := bind_eq_ok.mp done
        obtain ⟨cells, set, same⟩ := bind_eq_ok.mp rest
        cases same
        rw [Cells.get_of_set set, if_neg elsewhere, held]
      · cases done
        exact held
    refine ⟨byte, kept, fun bit => ?_⟩
    simp [here, shows bit]

/-- A line that has risen raises its sources in the first latch. -/
theorem Latched.latch {rose : Bool} {source : Interrupt.Sources}
    (done : Board.latch bank rose source = .ok changed) :
    changed.Latched offset fun bit =>
      (rose = true ∧ Register.irqAct1 = offset ∧ source.bits.toNat.testBit bit = true) ∨
        P bit := by
  unfold Board.latch at done
  cases rose with
  | false =>
      cases done
      exact latched.congr fun bit => by simp
  | true =>
      obtain ⟨⟨raised, registers⟩, raising, same⟩ := bind_eq_ok.mp done
      cases same
      exact (latched.raise isLatch raising).congr fun bit => by simp

end RegisterBank

/-! ## Latches along operations -/

namespace Board

open Operation (lastSample Pending)

section

variable {board changed : Board} {offset : UInt8} {P : Nat → Prop}
  (latched : board.registers.Latched offset P)
  (isLatch : Register.role offset = .interruptLatch)
include latched isLatch

theorem latched_of_writeRegister {target data : UInt8} {report : RegisterWrite}
    (written : board.writeRegister target data = .ok (report, changed)) :
    changed.registers.Latched offset fun bit =>
      P bit ∧ ¬ (target = offset ∧ data.toNat.testBit bit = true) := by
  obtain ⟨registers, incidents, done, -, rfl⟩ := of_writeRegister written
  exact latched.write isLatch done

/-- Over the bus a latch is written at its line. -/
theorem latched_of_store {bus : Transaction} {report : Store}
    (stored : board.store bus = .ok (report, changed)) :
    changed.registers.Latched offset fun bit =>
      P bit ∧ ¬ (lineOf bus.address = 0x2000 + offset.toNat ∧
        bus.data.toNat.testBit bit = true) := by
  rcases store_cases stored with ⟨target, write, line, written⟩ | ⟨outside, same⟩
  · simp only [line, Nat.add_left_cancel_iff, UInt8.toNat_inj]
    exact latched_of_writeRegister latched isLatch written
  · have offsetLt := offset.toNat_lt
    have elsewhere : lineOf bus.address ≠ 0x2000 + offset.toNat := by omega
    refine (latched.sameCells (congrArg _ same)).congr fun bit => ?_
    simp [elsewhere]

/-- The lines that rise reach the first latch, each by a bit of its own. -/
theorem latched_of_latchEdges {probes : Probes} {edges : Edges}
    (done : board.latchEdges probes = .ok (edges, changed)) :
    changed.registers.Latched offset fun bit =>
      (offset = Register.irqAct1 ∧
        (bit = 6 ∧ probes.irqRenderDone = true ∧ board.renderDone.level = false ∨
          bit = 7 ∧ probes.irqCopyComplete = true ∧ board.copyComplete.level = false)) ∨
      P bit := by
  obtain ⟨first, renderLatched, rest⟩ := bind_eq_ok.mp done
  obtain ⟨second, copyLatched, same⟩ := bind_eq_ok.mp rest
  cases same
  have renderBit (bit : Nat) : (0x40 : UInt8).toNat.testBit bit = true ↔ bit = 6 := by
    rw [show (0x40 : UInt8).toNat = 2 ^ 6 from rfl, Nat.testBit_two_pow, decide_eq_true_iff,
      eq_comm]
  have copyBit (bit : Nat) : (0x80 : UInt8).toNat.testBit bit = true ↔ bit = 7 := by
    rw [show (0x80 : UInt8).toNat = 2 ^ 7 from rfl, Nat.testBit_two_pow, decide_eq_true_iff,
      eq_comm]
  refine ((latched.latch isLatch renderLatched).latch isLatch copyLatched).congr fun bit => ?_
  simp only [Interrupt.Sources.renderDone, Interrupt.Sources.copyComplete, renderBit, copyBit,
    Bool.and_eq_true, Bool.not_eq_true']
  constructor
  · rintro (⟨rose, here, rfl⟩ | ⟨rose, here, rfl⟩ | stays)
    · exact .inl ⟨here.symm, .inr ⟨rfl, rose⟩⟩
    · exact .inl ⟨here.symm, .inl ⟨rfl, rose⟩⟩
    · exact .inr stays
  · rintro (⟨here, ⟨rfl, rose⟩ | ⟨rfl, rose⟩⟩ | stays)
    · exact .inr (.inl ⟨rose, here.symm, rfl⟩)
    · exact .inl ⟨rose, here.symm, rfl⟩
    · exact .inr (.inr stays)

end

/-- The latches show what is pending after the operations, and the edge detectors
remember the lines as they were sampled last. -/
structure Follows (board : Board) (operations : List Operation) : Prop where
  latches : ∀ offset, Register.role offset = .interruptLatch →
    board.registers.Latched offset (Pending operations offset)
  renderDone : board.renderDone.level = (lastSample operations).irqRenderDone
  copyComplete : board.copyComplete.level = (lastSample operations).irqCopyComplete

theorem follows_initial (settings : Settings) : (initial settings).Follows [] where
  latches offset _ :=
    (RegisterBank.latched_initial offset).congr fun _ =>
      (iff_false_left not_false).mpr Operation.not_pending_nil
  renderDone := rfl
  copyComplete := rfl

namespace Follows

variable {board changed : Board} {earlier : List Operation} {operation : Operation}

/-- It is enough to follow the latches where nothing is sampled. -/
theorem extend (follows : board.Follows earlier) (unsampled : operation.sampled = none)
    (latches : ∀ offset, Register.role offset = .interruptLatch →
      changed.registers.Latched offset fun bit =>
        operation.Raises earlier offset bit ∨
          Pending earlier offset bit ∧ ¬ operation.Acknowledges offset bit)
    (renderDone : changed.renderDone = board.renderDone)
    (copyComplete : changed.copyComplete = board.copyComplete) :
    changed.Follows (earlier ++ [operation]) := by
  have sample : lastSample (earlier ++ [operation]) = lastSample earlier := by
    rw [Operation.lastSample_append_singleton, unsampled]
    rfl
  constructor
  · intro offset isLatch
    exact (latches offset isLatch).congr fun bit =>
      (Operation.pending_append_singleton earlier operation).symm
  · rw [renderDone, sample]
    exact follows.renderDone
  · rw [copyComplete, sample]
    exact follows.copyComplete

/-- An operation that has nothing to do with interrupts leaves the latches alone. -/
theorem pass (follows : board.Follows earlier) (unsampled : operation.sampled = none)
    (quiet : ∀ offset bit,
      ¬ operation.Raises earlier offset bit ∧ ¬ operation.Acknowledges offset bit)
    (cells : changed.registers.cells = board.registers.cells)
    (renderDone : changed.renderDone = board.renderDone)
    (copyComplete : changed.copyComplete = board.copyComplete) :
    changed.Follows (earlier ++ [operation]) := by
  apply follows.extend unsampled _ renderDone copyComplete
  intro offset isLatch
  refine ((follows.latches offset isLatch).sameCells cells).congr fun bit => ?_
  obtain ⟨raisesNot, acknowledgesNot⟩ := quiet offset bit
  simp only [raisesNot, acknowledgesNot, false_or, not_false_eq_true, and_true]

/-- Every operation is followed. -/
theorem perform (follows : board.Follows earlier)
    (performed : board.perform operation = .ok changed) :
    changed.Follows (earlier ++ [operation]) := by
  cases operation with
  | latchEdges probes =>
      obtain ⟨⟨edges, after⟩, done, rfl⟩ := of_map_eq_ok performed
      have sample : lastSample (earlier ++ [.latchEdges probes]) = probes :=
        Operation.lastSample_append_singleton earlier _
      constructor
      · intro offset isLatch
        refine (latched_of_latchEdges (follows.latches offset isLatch) isLatch done).congr
          fun bit => ?_
        rw [Operation.pending_append_singleton, follows.renderDone, follows.copyComplete]
        simp only [Operation.Raises, Operation.Acknowledges, not_false_eq_true, and_true]
      · obtain ⟨cells, -, rfl⟩ := of_latchEdges done
        rw [sample]
      · obtain ⟨cells, -, rfl⟩ := of_latchEdges done
        rw [sample]
  | raise target mask =>
      obtain ⟨⟨raised, registers⟩, done, rfl⟩ := of_map_eq_ok performed
      refine follows.extend rfl ?_ rfl rfl
      intro offset isLatch
      refine ((follows.latches offset isLatch).raise isLatch done).congr fun bit => ?_
      simp only [Operation.Raises, Operation.Acknowledges, not_false_eq_true, and_true]
  | store bus =>
      obtain ⟨⟨report, after⟩, done, rfl⟩ := of_map_eq_ok performed
      have latches offset (isLatch : Register.role offset = .interruptLatch) :=
        latched_of_store (follows.latches offset isLatch) isLatch done
      obtain ⟨ram, registers, incidents, -, -, rfl⟩ := of_store done
      refine follows.extend rfl ?_ rfl rfl
      intro offset isLatch
      refine (latches offset isLatch).congr fun bit => ?_
      simp only [Operation.Raises, Operation.Acknowledges, false_or]
  | writeRegister target data =>
      obtain ⟨⟨report, after⟩, done, rfl⟩ := of_map_eq_ok performed
      have latches offset (isLatch : Register.role offset = .interruptLatch) :=
        latched_of_writeRegister (follows.latches offset isLatch) isLatch done
      obtain ⟨registers, incidents, -, -, rfl⟩ := of_writeRegister done
      refine follows.extend rfl ?_ rfl rfl
      intro offset isLatch
      refine (latches offset isLatch).congr fun bit => ?_
      simp only [Operation.Raises, Operation.Acknowledges, false_or]
  | fetch bus codeBank =>
      obtain ⟨⟨report, after⟩, done, rfl⟩ := of_map_eq_ok performed
      obtain ⟨bios, cartridge, incidents, -, -, rfl⟩ := of_fetch done
      exact follows.pass rfl (fun _ _ => ⟨id, id⟩) rfl rfl rfl
  | tickRegisters settings =>
      obtain ⟨⟨tick, after⟩, done, rfl⟩ := of_map_eq_ok performed
      obtain ⟨registers, ticked, rfl⟩ := of_tickRegisters done
      obtain ⟨seconds, -, rfl, -⟩ := RegisterBank.of_tick ticked
      exact follows.pass rfl (fun _ _ => ⟨id, id⟩) rfl rfl rfl
  | halfCycle =>
      obtain ⟨⟨toggled, after⟩, done, rfl⟩ := of_map_eq_ok performed
      obtain ⟨oscillator, -, -, rfl⟩ := of_halfCycle done
      exact follows.pass rfl (fun _ _ => ⟨id, id⟩) rfl rfl rfl
  | setKeys keys =>
      cases performed
      exact follows.pass rfl (fun _ _ => ⟨id, id⟩) rfl rfl rfl
  | present memory contrast =>
      obtain ⟨⟨presentation, after⟩, done, rfl⟩ := of_map_eq_ok performed
      obtain ⟨ram, screen, -, -, -, rfl⟩ := of_present done
      exact follows.pass rfl (fun _ _ => ⟨id, id⟩) rfl rfl rfl

end Follows

theorem performAll_append_singleton (board : Board) (earlier : List Operation)
    (operation : Operation) :
    board.performAll (earlier ++ [operation]) =
      board.performAll earlier >>= (perform · operation) := by
  unfold performAll
  rw [List.foldlM_append]
  simp

/-- Every row of operations is followed. -/
theorem follows_performAll {settings : Settings} {operations : List Operation} {board : Board}
    (performed : (initial settings).performAll operations = .ok board) :
    board.Follows operations := by
  induction operations using List.reverseRecOn generalizing board with
  | nil =>
      cases performed
      exact follows_initial settings
  | append_singleton earlier operation ih =>
      rw [performAll_append_singleton] at performed
      obtain ⟨middle, before, last⟩ := bind_eq_ok.mp performed
      exact (ih before).perform last

/-- Every operation of a board that is ready succeeds. -/
theorem Ready.perform_succeeds {board : Board} (ready : board.Ready 1) (operation : Operation) :
    Succeeds (board.perform operation) := by
  cases operation with
  | latchEdges probes => exact (ready.latchEdges_succeeds probes).map _
  | raise offset mask => exact (RegisterBank.raise_succeeds ready.sized.registers offset mask).map _
  | store bus => exact (ready.store_succeeds bus).map _
  | writeRegister offset data => exact (ready.writeRegister_succeeds offset data).map _
  | fetch bus codeBank => exact (ready.fetch_succeeds bus codeBank).map _
  | tickRegisters settings => exact (ready.tickRegisters_succeeds settings).map _
  | halfCycle => exact ready.halfCycle_succeeds.map _
  | setKeys keys => exact .ok _
  | present memory contrast => exact (ready.present_succeeds memory contrast).map _

/-- An operation is a move. -/
theorem move_of_perform {board after : Board} {operation : Operation}
    (performed : board.perform operation = .ok after) : Move board after := by
  cases operation with
  | latchEdges probes =>
      obtain ⟨⟨edges, _⟩, done, rfl⟩ := of_map_eq_ok performed
      exact .latchEdges _ done
  | raise offset mask =>
      obtain ⟨⟨raised, registers⟩, done, rfl⟩ := of_map_eq_ok performed
      exact .raise _ _ done
  | store bus =>
      obtain ⟨⟨report, _⟩, done, rfl⟩ := of_map_eq_ok performed
      exact .store _ done
  | writeRegister offset data =>
      obtain ⟨⟨report, _⟩, done, rfl⟩ := of_map_eq_ok performed
      exact .writeRegister _ _ done
  | fetch bus codeBank =>
      obtain ⟨⟨report, _⟩, done, rfl⟩ := of_map_eq_ok performed
      exact .fetch _ _ done
  | tickRegisters settings =>
      obtain ⟨⟨tick, _⟩, done, rfl⟩ := of_map_eq_ok performed
      exact .tickRegisters _ done
  | halfCycle =>
      obtain ⟨⟨toggled, _⟩, done, rfl⟩ := of_map_eq_ok performed
      exact .halfCycle done
  | setKeys keys =>
      cases performed
      exact .setKeys keys board
  | present memory contrast =>
      obtain ⟨⟨presentation, _⟩, done, rfl⟩ := of_map_eq_ok performed
      exact .present _ _ done

/-- Every operation of a bounded board succeeds. -/
theorem perform_bounded {board : Board} {bound : Nat} (bounded : board.Bounded bound)
    (room : bound < 2 ^ 62) (operation : Operation) :
    ∃ after, board.perform operation = .ok after ∧ after.Bounded (bound + 9) := by
  have ready : board.Ready 1 := bounded.ready (by omega)
  obtain ⟨after, performed⟩ := ready.perform_succeeds operation
  exact ⟨after, performed, bounded.move (move_of_perform performed)⟩

theorem performAll_bounded (settings : Settings) {operations : List Operation}
    (short : operations.length < 2 ^ 58) :
    ∃ board, (initial settings).performAll operations = .ok board ∧
      board.Bounded (9 * operations.length) := by
  induction operations using List.reverseRecOn with
  | nil => exact ⟨_, rfl, bounded_initial settings⟩
  | append_singleton earlier operation ih =>
      rw [List.length_append, List.length_singleton] at short ⊢
      obtain ⟨middle, before, bounded⟩ := ih (by omega)
      obtain ⟨after, last, afterBounded⟩ := perform_bounded bounded (by omega) operation
      refine ⟨after, ?_, afterBounded⟩
      rw [performAll_append_singleton, before, ok_bind, last]

/-- From power-on, any operations in any order succeed as long as there are not too
many to count, and then each latch reads as exactly the interrupts that are
pending. Nothing but a latch can be raised. -/
theorem latches_read_pending (settings : Settings) (operations : List Operation) :
    (operations.length < 2 ^ 58 → ∃ board, (initial settings).performAll operations = .ok board) ∧
    ∀ board, (initial settings).performAll operations = .ok board →
      (∀ offset : UInt8, 0x27 ≤ offset → offset ≤ 0x2A →
        ∃ byte, board.registers.read offset = .ok byte ∧
          ∀ bit, byte.toNat.testBit bit = true ↔ Pending operations offset bit) ∧
      ∀ offset mask : UInt8, ¬ (0x27 ≤ offset ∧ offset ≤ 0x2A) →
        board.registers.raise offset mask = .ok (false, board.registers) := by
  constructor
  · intro short
    obtain ⟨board, performed, -⟩ := performAll_bounded settings short
    exact ⟨board, performed⟩
  intro board performed
  have follows := follows_performAll performed
  constructor
  · intro offset above below
    have isLatch := (Register.role_eq_interruptLatch_iff offset).mpr ⟨above, below⟩
    exact (follows.latches offset isLatch).read isLatch
  · intro offset mask elsewhere
    have noLatch := mt (Register.role_eq_interruptLatch_iff offset).mp elsewhere
    unfold RegisterBank.raise
    split
    · rename_i isLatch
      exact absurd isLatch noLatch
    · rfl

/-- Rendering is done, which is acknowledged while the line stays high; then the
host raises another interrupt. -/
def stuckLine : List Operation :=
  [.latchEdges { irqRenderDone := true }, .writeRegister 0x27 0x40,
    .latchEdges { irqRenderDone := true }, .raise 0x27 0x01]

/-- A line that stays high raises nothing after its acknowledge, and what was raised
later is kept. -/
theorem latches_read_pending_stuckLine :
    ∃ board byte, (initial {}).performAll stuckLine = .ok board ∧
      board.registers.read 0x27 = .ok byte ∧
      byte.toNat.testBit 6 = false ∧ byte.toNat.testBit 0 = true := by
  obtain ⟨succeeds, shows⟩ := latches_read_pending {} stuckLine
  obtain ⟨board, performed⟩ := succeeds (by decide)
  obtain ⟨byte, read, pending⟩ := (shows board performed).1 0x27 (by decide) (by decide)
  have split : stuckLine = [Operation.latchEdges { irqRenderDone := true }] ++
      [Operation.writeRegister 0x27 0x40] ++ [Operation.latchEdges { irqRenderDone := true }] ++
      [Operation.raise 0x27 0x01] := rfl
  have acknowledged : ¬ Pending stuckLine 0x27 6 := by
    rw [split, Operation.pending_append_singleton, Operation.pending_append_singleton,
      Operation.pending_append_singleton]
    rintro (⟨-, raises⟩ | ⟨⟨-, ⟨-, -, low⟩ | ⟨other, -⟩⟩ | ⟨raises | ⟨-, kept⟩, -⟩, -⟩)
    · exact absurd raises (by decide)
    · cases low
    · cases other
    · exact raises
    · exact kept ⟨rfl, rfl⟩
  have raised : Pending stuckLine 0x27 0 := by
    rw [split, Operation.pending_append_singleton]
    exact .inl ⟨rfl, rfl⟩
  refine ⟨board, byte, performed, read, ?_, (pending 0).mpr raised⟩
  rw [← Bool.not_eq_true, pending]
  exact acknowledged

end Board

end Handheld
