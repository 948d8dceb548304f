/-
# What a register write does

A write is reported with the byte that it leaves in the bank, if it leaves one. That byte
is then what the register reads, whether it is read from the bank or from a device; and a
write that leaves none has changed nothing. No other register reads differently.

Writing the same byte once more changes nothing, with one exception. What a byte means to
the LCD control register depends on the byte before it, so there a repeated write is a
new one.
-/

import Handheld.Proofs.Board.Reachable
import Handheld.Proofs.Register.History

namespace Handheld

open Checked

theorem Register.role_eq_refreshRate_iff (offset : UInt8) :
    role offset = .refreshRate ↔ offset = 0x81 := by
  constructor
  · intro isRate
    have found := role_isAt offset
    rwa [isRate] at found
  · rintro rfl
    rfl

theorem Register.role_eq_lcdControl_iff (offset : UInt8) :
    role offset = .lcdControl ↔ offset = 0xFE := by
  constructor
  · intro isControl
    unfold role at isControl
    split at isControl
    case h_16 value => exact UInt8.toNat.inj value
    case h_17 =>
      split at isControl
      · cases isControl
      · split at isControl <;> cases isControl
    all_goals cases isControl
  · rintro rfl
    rfl

theorem Interrupt.acknowledge_acknowledge (latched mask : UInt8) :
    acknowledge (acknowledge latched mask) mask = acknowledge latched mask := by
  rw [acknowledge, acknowledge, UInt8.and_assoc, UInt8.and_self]

namespace RefreshController

/-- After a rate write the coarse bits are those of the byte written. -/
theorem coarse_writeRate (controller : RefreshController) (data : UInt8) :
    coarse (controller.writeRate data).2.rate = coarse data := by
  unfold writeRate
  split
  · exact coarse_low data
  · apply coarse_eq_of_mod_eq
    rw [toNat_join, Nat.mul_add_mod]
    exact Nat.mod_mod _ _

/-- A rate that has just been written is made of its own fine nibble and the low nibble of
the byte written. -/
theorem join_writeRate (controller : RefreshController) (data : UInt8) :
    fine (controller.writeRate data).2.rate ||| (data &&& 0x0F) =
      (controller.writeRate data).2.rate := by
  apply UInt8.toNat.inj
  rw [toNat_join]
  unfold writeRate
  split
  · rw [toNat_low]
    omega
  · rw [toNat_join]
    omega

theorem writeRate_writeRate (controller : RefreshController) (data : UInt8) :
    ((controller.writeRate data).2.writeRate data).2 = (controller.writeRate data).2 := by
  have sameCoarse : (coarse (controller.writeRate data).2.rate != coarse data) = false := by
    rw [coarse_writeRate, bne_self_eq_false]
  rw [writeRate, sameCoarse, if_neg Bool.false_ne_true, join_writeRate]

theorem setMapByte_setMapByte (controller : RefreshController) (index : Nat) (data : UInt8) :
    (controller.setMapByte index data).setMapByte index data =
      controller.setMapByte index data := by
  have absorbs (map mask byte : UInt32) :
      (map &&& mask ||| byte) &&& mask ||| byte = map &&& mask ||| byte := by
    rw [← UInt32.toBitVec_inj]
    ext bit
    simp only [UInt32.toBitVec_or, UInt32.toBitVec_and, BitVec.getElem_or, BitVec.getElem_and]
    grind
  simp only [setMapByte, absorbs]

/-- What a register write makes of the controller. -/
def afterWrite (controller : RefreshController) (offset data : UInt8) : RefreshController :=
  match Register.role offset with
  | .refreshMode => controller.setMode data
  | .refreshRate => (controller.writeRate data).2
  | .mapByte index => controller.setMapByte index data
  | _ => controller

theorem rate_afterWrite (controller : RefreshController) {offset : UInt8}
    (noRate : offset ≠ 0x81) (data : UInt8) :
    (controller.afterWrite offset data).rate = controller.rate := by
  unfold afterWrite
  split
  · rfl
  · rename_i isRate
    exact absurd ((Register.role_eq_refreshRate_iff offset).mp isRate) noRate
  · rfl
  · rfl

end RefreshController

namespace RegisterBank

variable {bank changed : RegisterBank} {offset data : UInt8} {report : RegisterWrite}

theorem seconds_of_write (written : bank.write offset data = .ok (report, changed)) :
    changed.seconds =
      if offset = 0x08 then bank.seconds.setControl data else bank.seconds := by
  have count := count_of_write written
  obtain ⟨control, -⟩ := devices_of_write written
  simp only [Register.role_eq_secondsControl_iff] at control
  have whole : changed.seconds = ⟨changed.seconds.control, changed.seconds.count⟩ := rfl
  rw [whole, control, count]
  split <;> rfl

theorem refresh_of_write (written : bank.write offset data = .ok (report, changed)) :
    changed.refresh = bank.refresh.afterWrite offset data := by
  obtain ⟨applied, cells, first, -, rfl⟩ := of_write written
  show applied.refresh = _
  unfold applyWrite at first
  unfold RefreshController.afterWrite
  cases role : Register.role offset with
  | interruptLatch =>
      simp only [role] at first
      obtain ⟨latched, -, same⟩ := bind_eq_ok.mp first
      cases same
      rfl
  | secondsControl | secondsByte index | keyPad | cartridgeBus | refreshMode | refreshRate
  | mapByte index | lcdControl | plain | unknown | absent =>
      simp only [role] at first
      cases first
      rfl

/-- The LCD control register is the only one that takes commands. -/
theorem lcd_of_write (written : bank.write offset data = .ok (report, changed)) :
    report.lcd = (if offset = 0xFE then some (bank.lcd.command data).1 else none) ∧
      changed.lcd = if offset = 0xFE then (bank.lcd.command data).2 else bank.lcd := by
  obtain ⟨applied, cells, first, -, rfl⟩ := of_write written
  show _ ∧ applied.lcd = _
  simp only [← Register.role_eq_lcdControl_iff]
  unfold applyWrite at first
  cases role : Register.role offset with
  | interruptLatch =>
      simp only [role] at first
      obtain ⟨latched, -, same⟩ := bind_eq_ok.mp first
      cases same
      exact ⟨rfl, rfl⟩
  | secondsControl | secondsByte index | keyPad | cartridgeBus | refreshMode | refreshRate
  | mapByte index | lcdControl | plain | unknown | absent =>
      simp only [role] at first
      cases first
      exact ⟨rfl, rfl⟩

/-- A write leaves no byte exactly if it is refused, and then it reaches no device. -/
theorem refused_of_applyWrite (applied : bank.applyWrite offset data = .ok (report, changed)) :
    (report.stored = none ↔ report.outcome = .readOnly ∨ report.outcome = .dropped) ∧
      (report.stored = none → changed = bank) := by
  unfold applyWrite at applied
  cases role : Register.role offset with
  | secondsByte index | keyPad | cartridgeBus | absent =>
      simp only [role] at applied
      cases applied
      simp
  | interruptLatch =>
      simp only [role] at applied
      obtain ⟨latched, -, same⟩ := bind_eq_ok.mp applied
      cases same
      simp
  | refreshRate =>
      simp only [role] at applied
      cases applied
      cases (bank.refresh.writeRate data).1 <;> simp
  | secondsControl | refreshMode | mapByte index | lcdControl | plain | unknown =>
      simp only [role] at applied
      cases applied
      simp

theorem stored_eq_none_iff (written : bank.write offset data = .ok (report, changed)) :
    report.stored = none ↔ report.outcome = .readOnly ∨ report.outcome = .dropped := by
  obtain ⟨applied, cells, first, -, -⟩ := of_write written
  exact (refused_of_applyWrite first).1

theorem eq_of_write_of_stored_eq_none (written : bank.write offset data = .ok (report, changed))
    (nothing : report.stored = none) : changed = bank := by
  obtain ⟨⟨applied, middle⟩, first, rest⟩ := bind_eq_ok.mp written
  obtain ⟨last, stored, same⟩ := bind_eq_ok.mp rest
  cases same
  rw [nothing] at stored
  cases stored
  exact (refused_of_applyWrite first).2 nothing

/-- A command of the LCD is never refused. -/
theorem lcd_of_refused (written : bank.write offset data = .ok (report, changed))
    (nothing : report.stored = none) : report.lcd = none := by
  rw [(lcd_of_write written).1, if_neg]
  rintro rfl
  obtain ⟨applied, cells, first, -, -⟩ := of_write written
  cases first
  cases nothing

/-- The byte that is left in the bank is the byte that the register reads, also where a
device answers. -/
theorem read_of_write (written : bank.write offset data = .ok (report, changed)) {byte : UInt8}
    (stored : report.stored = some byte) : changed.read offset = .ok byte := by
  have cell := get_of_write written offset
  rw [if_pos rfl, stored, Option.elim_some] at cell
  obtain ⟨applied, cells, first, -, rfl⟩ := of_write written
  unfold applyWrite at first
  unfold read
  cases role : Register.role offset with
  | secondsControl | refreshMode | refreshRate =>
      simp only [role] at first
      cases first
      cases stored
      rfl
  | secondsByte index | keyPad =>
      simp only [role] at first
      cases first
      cases stored
  | interruptLatch | cartridgeBus | mapByte index | lcdControl | plain | unknown | absent =>
      exact cell

/-- A write to one register is not seen in another one. -/
theorem read_of_write_of_ne (written : bank.write offset data = .ok (report, changed))
    {other : UInt8} (elsewhere : other ≠ offset) : changed.read other = bank.read other := by
  have cell := get_of_write written other
  rw [if_neg (Ne.symm elsewhere)] at cell
  have seconds := seconds_of_write written
  obtain ⟨-, mode, -, keyPad⟩ := devices_of_write written
  unfold read
  cases role : Register.role other with
  | secondsControl =>
      have here : other = 0x08 := (Register.role_eq_secondsControl_iff other).mp role
      rw [seconds, if_neg (here ▸ Ne.symm elsewhere)]
  | secondsByte index =>
      have count : changed.seconds.count = bank.seconds.count := count_of_write written
      simp only [SecondsCounter.byte, count]
  | keyPad => rw [keyPad]
  | refreshMode =>
      have here : other = 0x80 := (Register.role_eq_refreshMode_iff other).mp role
      rw [mode, if_neg]
      rw [Register.role_eq_refreshMode_iff]
      exact here ▸ Ne.symm elsewhere
  | refreshRate =>
      have here : other = 0x81 := (Register.role_eq_refreshRate_iff other).mp role
      rw [refresh_of_write written, RefreshController.rate_afterWrite]
      exact here ▸ Ne.symm elsewhere
  | interruptLatch | cartridgeBus | mapByte index | lcdControl | plain | unknown | absent =>
      exact cell

/-- To all devices but the LCD controller a repeated byte is no news. -/
theorem applyWrite_again (written : bank.write offset data = .ok (report, changed))
    (noCommand : offset ≠ 0xFE) :
    ∃ again, changed.applyWrite offset data = .ok (again, changed) ∧
      again.stored = report.stored := by
  have cell := get_of_write written offset
  rw [if_pos rfl] at cell
  obtain ⟨applied, cells, first, -, rfl⟩ := of_write written
  unfold applyWrite at first ⊢
  cases role : Register.role offset with
  | secondsControl | secondsByte index | keyPad | cartridgeBus | refreshMode | plain | unknown
  | absent =>
      simp only [role] at first ⊢
      cases first
      exact ⟨_, rfl, rfl⟩
  | interruptLatch =>
      simp only [role] at first ⊢
      obtain ⟨latched, -, same⟩ := bind_eq_ok.mp first
      cases same
      rw [cell, Option.elim_some, ok_bind]
      exact ⟨_, rfl, congrArg some (Interrupt.acknowledge_acknowledge latched data)⟩
  | refreshRate =>
      simp only [role] at first ⊢
      cases first
      refine ⟨_, congrArg Except.ok (Prod.ext rfl ?_), ?_⟩
      · simp only [RefreshController.writeRate_writeRate]
      · simp only [RefreshController.writeRate_writeRate]
  | mapByte index =>
      simp only [role] at first ⊢
      cases first
      simp only [RefreshController.setMapByte_setMapByte]
      exact ⟨_, rfl, rfl⟩
  | lcdControl => exact absurd ((Register.role_eq_lcdControl_iff offset).mp role) noCommand

theorem write_again (written : bank.write offset data = .ok (report, changed))
    (noCommand : offset ≠ 0xFE) :
    ∃ again, changed.write offset data = .ok (again, changed) := by
  obtain ⟨again, applied, sameByte⟩ := applyWrite_again written noCommand
  refine ⟨again, bind_eq_ok.mpr ⟨_, applied, bind_eq_ok.mpr ⟨changed, ?_, rfl⟩⟩⟩
  have cell := get_of_write written offset
  rw [if_pos rfl] at cell
  cases left : again.stored with
  | none => rfl
  | some byte =>
      rw [← sameByte, left, Option.elim_some] at cell
      rw [store, Cells.set_of_get cell, ok_bind]

/-- What a host may rely on when a byte has been written at an offset. -/
structure Honours (bank : RegisterBank) (offset data : UInt8) (report : RegisterWrite)
    (changed : RegisterBank) : Prop where
  stored : ∀ byte, report.stored = some byte → changed.read offset = .ok byte
  refused : report.stored = none → changed = bank
  elsewhere : ∀ other, other ≠ offset →
    ∃ byte, bank.read other = .ok byte ∧ changed.read other = .ok byte
  lcd : report.lcd.isSome = true ↔ offset = 0xFE
  again : offset ≠ 0xFE → ∃ second, changed.write offset data = .ok (second, changed)

/-- As long as the bank has all its cells, a write succeeds and honours the contract. -/
theorem write_honours (sized : size ≤ bank.cells.size) (offset data : UInt8) :
    ∃ report changed, bank.write offset data = .ok (report, changed) ∧
      bank.Honours offset data report changed := by
  obtain ⟨⟨report, changed⟩, written⟩ := write_succeeds sized offset data
  refine ⟨report, changed, written, ?_, eq_of_write_of_stored_eq_none written, ?_, ?_,
    write_again written⟩
  · intro byte stored
    exact read_of_write written stored
  · intro other elsewhere
    obtain ⟨byte, read⟩ := read_succeeds sized other
    exact ⟨byte, read, (read_of_write_of_ne written elsewhere).trans read⟩
  · rw [(lcd_of_write written).1]
    split <;> simp_all

/-- Whatever was done with a register bank since power-on, on its own or as part of a
board, a write of any byte at any offset succeeds and honours the contract. -/
theorem write_contract :
    (∀ operations : List Operation, ∃ bank, initial.performAll operations = .ok bank ∧
      ∀ offset data, ∃ report changed, bank.write offset data = .ok (report, changed) ∧
        bank.Honours offset data report changed) ∧
    (∀ board : Board, board.Reachable → ∀ offset data,
      ∃ report changed, board.registers.write offset data = .ok (report, changed) ∧
        board.registers.Honours offset data report changed) := by
  constructor
  · intro operations
    obtain ⟨bank, performed, follows⟩ := performAll_follows operations
    exact ⟨bank, performed, write_honours follows.sized.ge⟩
  · intro board reachable
    exact write_honours reachable.sized_supplied.1.registers

end RegisterBank

end Handheld
