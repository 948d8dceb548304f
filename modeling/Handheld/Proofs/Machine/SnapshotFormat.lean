/-
# The format of snapshots

Any board at all can be written and read back, not only one that a machine can
reach, and in whatever order its discrepancies are written. What is read is the
board without the bytes of its images, whatever follows on the wire. A snapshot
that was cut is refused for that reason and changes nothing, and a snapshot goes
into a buffer exactly if there is room for it.

The only condition is that every sequence has a length that fits the 64 bit number
in front of it.
-/

import Handheld.Core.Scripted
import Handheld.Proofs.Machine.Actions
import Handheld.Proofs.Wire.Incremental

namespace Handheld

open Checked

namespace Wire

variable {α β : Type} [Wire α] [Wire β]

theorem length_write_pair (a : α) (b : β) :
    (Wire.write (a, b)).length = (Wire.write a).length + (Wire.write b).length :=
  List.length_append

/-- A sequence of bytes takes a byte for each of them. -/
theorem size_le_length_write (bytes : Array UInt8) : bytes.size ≤ (Wire.write bytes).length := by
  show bytes.size ≤
    (Wire.write (UInt64.ofNat bytes.size) ++ bytes.toList.flatMap fun byte => [byte]).length
  rw [List.length_append, List.flatMap_singleton', Array.length_toList]
  exact Nat.le_add_left _ _

/-- The order of items makes no difference to their number of bytes. -/
theorem length_write_of_perm {first second : List α} (perm : first.Perm second) :
    (Wire.write first.toArray).length = (Wire.write second.toArray).length := by
  show (Wire.write (UInt64.ofNat first.length) ++ first.flatMap Wire.write).length =
    (Wire.write (UInt64.ofNat second.length) ++ second.flatMap Wire.write).length
  rw [List.length_append, List.length_append, perm.length_eq, (perm.flatMap_right _).length_eq]

end Wire

theorem Board.length_writeInOrder {board : Board} {order : List (UInt16 × UInt32)}
    (perm : order.Perm board.audit.discrepancies.entries) :
    (board.writeInOrder order).length = (Wire.write board).length := by
  have audit : (board.audit.writeInOrder order).length =
      (board.audit.writeInOrder board.audit.discrepancies.entries).length := by
    simp only [Audit.writeInOrder, Wire.length_write_pair, Wire.length_write_of_perm perm]
  rw [write_eq_writeInOrder]
  simp only [writeInOrder, List.length_append, audit]

namespace Wire

variable {α : Type} [Wire α] {bytes : List UInt8} {value : α}

theorem Spells.decode_append (spells : Spells bytes value) (rest : List UInt8) :
    decode (bytes ++ rest) = .ok value := by
  rw [decode, spells rest]

theorem Spells.decode_take [Incremental α] (spells : Spells bytes value) {length : Nat}
    (short : length < bytes.length) :
    (decode (bytes.take length) : Except Error α) = .error (.snapshot .endOfBytes) := by
  rw [decode, (waits_read α).read_take spells short]

end Wire

namespace Machine

variable {σ : Type} (machine : Machine σ) {buffer : List UInt8}

/-- Where there is room, a snapshot takes the front of a buffer and nothing more. -/
theorem save_of_room (room : machine.snapshotSize ≤ buffer.length) :
    ∃ after, machine.save buffer = .ok (machine.snapshotSize, after) ∧
      after.length = buffer.length ∧ after.take machine.snapshotSize = machine.snapshot ∧
      after.drop machine.snapshotSize = buffer.drop machine.snapshotSize := by
  refine ⟨_, if_pos room, ?_, List.take_left, List.drop_left⟩
  rw [List.length_append, List.length_drop]
  exact Nat.add_sub_cancel' room

theorem save_of_full (full : buffer.length < machine.snapshotSize) :
    machine.save buffer = .error (.snapshot .bufferFull) :=
  if_neg (Nat.not_le.mpr full)

/-- For every board, every order of its discrepancies and whatever follows: the
bytes read as the board without its images; any strict beginning of them is found
too short and leaves the machine that wanted to restore it as it was; and a machine
with that board needs as many bytes for its snapshot, which go to the front of a
buffer that has room for them and to no other. -/
theorem snapshot_format_law (board : Board) (fits : board.LengthsFit)
    {order : List (UInt16 × UInt32)} (perm : order.Perm board.audit.discrepancies.entries) :
    (∀ rest, Wire.decode (board.writeInOrder order ++ rest) = .ok board.withoutImages) ∧
    (∀ length < (board.writeInOrder order).length,
      let cut := (board.writeInOrder order).take length
      (Wire.decode cut : Except Error Board) = .error (.snapshot .endOfBytes) ∧
      ∀ (σ : Type) (machine : Machine σ),
        machine.restore cut = .error (.snapshot .endOfBytes) ∧
          machine.accept (machine.restore cut) = machine) ∧
    ∀ (σ : Type) (machine : Machine σ), machine.board = board →
      machine.snapshot = board.writeInOrder board.audit.discrepancies.entries ∧
      machine.snapshotSize = (board.writeInOrder order).length ∧
      ∀ buffer : List UInt8,
        (machine.snapshotSize ≤ buffer.length →
          ∃ after, machine.save buffer = .ok (machine.snapshotSize, after) ∧
            after.length = buffer.length ∧
            after.take machine.snapshotSize = machine.snapshot ∧
            after.drop machine.snapshotSize = buffer.drop machine.snapshotSize) ∧
        (buffer.length < machine.snapshotSize →
          machine.save buffer = .error (.snapshot .bufferFull)) := by
  have spells := Board.spells_writeInOrder perm fits
  refine ⟨spells.decode_append, ?_, ?_⟩
  · intro length short
    have found := spells.decode_take short
    refine ⟨found, fun σ machine => ?_⟩
    have refused : machine.restore ((board.writeInOrder order).take length) =
        .error (.snapshot .endOfBytes) := by
      rw [restore, found]
      rfl
    rw [refused]
    exact ⟨rfl, rfl⟩
  · rintro σ machine rfl
    exact ⟨rfl, (Board.length_writeInOrder perm).symm, fun buffer =>
      ⟨machine.save_of_room, machine.save_of_full⟩⟩

/-- A board that never was at power-on: two opcodes have disagreed with the table, and
more often than one group of bits can count. -/
def disagreeing : Board :=
  let board := Board.initial {}
  { board with
    audit := { board.audit with discrepancies := .ofList [(0x0001, 2), (0x0300, 0x12345)] } }

/-- The discrepancies may be written by falling opcode as well. -/
theorem snapshot_format_law_falling :
    disagreeing.LengthsFit ∧
      Wire.decode (disagreeing.writeInOrder [(0x0300, 0x12345), (0x0001, 2)] ++ [0xFF]) =
        .ok disagreeing.withoutImages ∧
      (Wire.decode ((disagreeing.writeInOrder [(0x0300, 0x12345), (0x0001, 2)]).take 4000) :
        Except Error Board) = .error (.snapshot .endOfBytes) := by
  have fits : disagreeing.LengthsFit := { (Board.intact_initial {}).lengthsFit with }
  have perm : [(0x0300, 0x12345), (0x0001, 2)].Perm disagreeing.audit.discrepancies.entries :=
    List.Perm.swap _ _ _
  obtain ⟨reads, cuts, -⟩ := snapshot_format_law disagreeing fits perm
  refine ⟨fits, reads [0xFF], (cuts 4000 ?_).1⟩
  have ram : 4096 ≤ (Wire.write disagreeing.ram).length := by
    have cells : disagreeing.ram.cells.size = 4096 := Array.size_replicate
    rw [← cells]
    exact Wire.size_le_length_write disagreeing.ram.cells
  rw [Board.writeInOrder, List.length_append]
  omega

end Machine

end Handheld
