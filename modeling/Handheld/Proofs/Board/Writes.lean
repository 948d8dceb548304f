/-
# Bus writes are local and accounted for

A bus write goes to one place. Images refuse it, working memory takes it at one cell, and
a register takes it or not. An observer sees the new byte at every address that resolves
to the same cell, and at all other addresses what was there before.

No write is lost from the books either. It is counted as illegal, dropped or unknown, or
it has reached working memory or a register that took it; so the counters and the two
kinds of success add up to the number of writes.

As for reads, all that a write can fail for is a counter that is full. Hosts write
registers without letting time pass, so that here the clock sets no limit to the counters.
The length of a history does.
-/

import Handheld.Proofs.AddressMap.Partition
import Handheld.Proofs.Board.ReadPaths
import Handheld.Proofs.Machine.Handling
import Handheld.Proofs.Register.Writes

namespace Handheld

open Checked

namespace Incidents

/-- The writes among the incidents. -/
def writes (incidents : Incidents) : Nat :=
  incidents.illegalWrites.toNat + incidents.droppedWrites.toNat + incidents.unknownWrites.toNat

/-- The counters that a register write calls for, if any, have room for it. -/
structure RoomFor (incidents : Incidents) (write : RegisterWrite) : Prop where
  unknownWrites : write.outcome = .unknown → incidents.unknownWrites.toNat + 1 < 2 ^ 64
  droppedWrites : write.outcome = .readOnly ∨ write.outcome = .dropped →
    incidents.droppedWrites.toNat + 1 < 2 ^ 64
  lcdHazards : write.lcd.any Lcd.Command.isHazard = true →
    incidents.lcdHazards.toNat + 1 < 2 ^ 64

/-- A register write has been counted for what became of it, and for a hazard. -/
structure Accounts (before : Incidents) (write : RegisterWrite) (after : Incidents) : Prop where
  unknownWrites : Counted (write.outcome = .unknown) before.unknownWrites after.unknownWrites
  droppedWrites : Counted (write.outcome = .readOnly ∨ write.outcome = .dropped)
    before.droppedWrites after.droppedWrites
  lcdHazards : Counted (write.lcd.any Lcd.Command.isHazard = true)
    before.lcdHazards after.lcdHazards
  rest : after = { before with
    unknownWrites := after.unknownWrites
    droppedWrites := after.droppedWrites
    lcdHazards := after.lcdHazards }

end Incidents

theorem Counted.toNat_eq {happened : Prop} [Decidable happened] {before after : UInt64}
    (counted : Counted happened before after) :
    after.toNat = before.toNat + if happened then 1 else 0 := by
  split
  case isTrue happens => exact counted.once happens
  case isFalse not => rw [counted.never not, Nat.add_zero]

/-- A byte written to working memory is found where it was put, and nowhere else. -/
theorem Ram.read_of_write {ram written : Ram} {offset : Nat} {data : UInt8}
    (done : ram.write offset data = .ok written) (other : Nat) :
    written.read other =
      if other % Ram.size = offset % Ram.size then .ok data else ram.read other := by
  obtain ⟨cells, set, same⟩ := bind_eq_ok.mp done
  cases same
  exact Cells.get_of_set set _

namespace Board

variable {incidents counted : Incidents} {write : RegisterWrite}

theorem countOutcome_eq (incidents : Incidents) (outcome : WriteClass) :
    countOutcome incidents outcome =
      countIf (outcome = .unknown) incidents.unknownWrites >>= fun unknownWrites =>
      (countIf (outcome = .readOnly ∨ outcome = .dropped) incidents.droppedWrites).map
        fun droppedWrites => { incidents with unknownWrites, droppedWrites } := by
  cases outcome with
  | stored | acknowledged | rematched | readOnly | dropped => rfl
  | unknown =>
      show (add64 incidents.unknownWrites 1).map _ = add64 incidents.unknownWrites 1 >>= _
      cases add64 incidents.unknownWrites 1 <;> rfl

theorem countHazard_eq (incidents : Incidents) (command : Option Lcd.Command) :
    countHazard incidents command =
      (countIf (command.any Lcd.Command.isHazard) incidents.lcdHazards).map fun lcdHazards =>
        { incidents with lcdHazards } := by
  unfold countHazard countIf
  split <;> rfl

theorem countWrite_eq_ok (room : incidents.RoomFor write) :
    ∃ counted, countWrite incidents write = .ok counted ∧ incidents.Accounts write counted := by
  obtain ⟨unknownWrites, first, unknown⟩ := countIf_eq_ok decide_eq_true_iff room.unknownWrites
  obtain ⟨droppedWrites, second, dropped⟩ := countIf_eq_ok decide_eq_true_iff room.droppedWrites
  obtain ⟨lcdHazards, third, hazard⟩ := countIf_eq_ok Iff.rfl room.lcdHazards
  refine ⟨{ incidents with unknownWrites, droppedWrites, lcdHazards }, ?_, unknown, dropped,
    hazard, rfl⟩
  rw [countWrite_eq, countOutcome_eq, first, ok_bind, second, Except.map, ok_bind, countHazard_eq,
    third, Except.map]

/-- The counters are tried one after the other, and the first full one stops the write. -/
theorem countWrite_eq_error (full : ¬ incidents.RoomFor write) :
    countWrite incidents write = .error .overflow := by
  rw [countWrite_eq, countOutcome_eq]
  by_cases unknown : write.outcome = .unknown → incidents.unknownWrites.toNat + 1 < 2 ^ 64
  · obtain ⟨unknownWrites, first, -⟩ := countIf_eq_ok decide_eq_true_iff unknown
    rw [first, ok_bind]
    by_cases dropped : write.outcome = .readOnly ∨ write.outcome = .dropped →
        incidents.droppedWrites.toNat + 1 < 2 ^ 64
    · obtain ⟨droppedWrites, second, -⟩ := countIf_eq_ok decide_eq_true_iff dropped
      have hazard : ¬ (write.lcd.any Lcd.Command.isHazard = true →
          incidents.lcdHazards.toNat + 1 < 2 ^ 64) := fun room => full ⟨unknown, dropped, room⟩
      obtain ⟨happens, noRoom⟩ := Classical.not_imp.mp hazard
      rw [second, Except.map, ok_bind, countHazard_eq, countIf_eq_error happens noRoom]
      rfl
    · obtain ⟨happens, noRoom⟩ := Classical.not_imp.mp dropped
      rw [countIf_eq_error (decide_eq_true happens) noRoom]
      rfl
  · obtain ⟨happens, noRoom⟩ := Classical.not_imp.mp unknown
    rw [countIf_eq_error (decide_eq_true happens) noRoom]
    rfl

/-- What was counted had room. -/
theorem accounts_of_countWrite (done : countWrite incidents write = .ok counted) :
    incidents.Accounts write counted := by
  by_cases room : incidents.RoomFor write
  · obtain ⟨_, again, accounts⟩ := countWrite_eq_ok room
    cases Except.ok.inj (done.symm.trans again)
    exact accounts
  · rw [countWrite_eq_error room] at done
    cases done

variable {board changed : Board} {address : UInt32} {data : UInt8} {report : Store}
  {region : Region} {offset : Nat}

theorem locate_write (board : Board) (address : UInt32) (data : UInt8) :
    board.locate (Transaction.write address data).address = board.locate address :=
  decode_and_busMask ..

theorem store_of_image (isImage : region = .bios ∨ region = .cartridge)
    (located : board.locate address = ⟨region, offset⟩) (data : UInt8) :
    board.store (.write address data) =
      (add64 board.incidents.illegalWrites 1).map fun illegalWrites =>
        (.refused region (address &&& busMask),
          { board with incidents := { board.incidents with illegalWrites } }) := by
  unfold store
  rw [locate_write, located]
  rcases isImage with rfl | rfl
  · cases add64 board.incidents.illegalWrites 1 <;> rfl
  · cases add64 board.incidents.illegalWrites 1 <;> rfl

theorem store_of_ram (located : board.locate address = ⟨.ram, offset⟩) (data : UInt8) :
    board.store (.write address data) =
      (board.ram.write offset data).map fun ram => (.ram offset data, { board with ram }) := by
  unfold store
  rw [locate_write, located]
  show (board.ram.write offset data >>= _) = _
  cases board.ram.write offset data <;> rfl

theorem store_of_register (located : board.locate address = ⟨.registers, offset⟩) (data : UInt8) :
    board.store (.write address data) =
      (board.writeRegister (UInt8.ofNat offset) data).map fun done =>
        (.register done.1, done.2) := by
  unfold store
  rw [locate_write, located]
  show (board.writeRegister (UInt8.ofNat offset) data >>= _) = _
  cases board.writeRegister (UInt8.ofNat offset) data <;> rfl

theorem regionOf_eq_of_locate {location : Location} (located : board.locate address = location) :
    regionOf address = location.region :=
  congrArg Location.region located

/-- Offsets that decoding finds in working memory and among the registers lie inside. -/
theorem offset_lt_of_locate (located : board.locate address = ⟨region, offset⟩) :
    (region = .ram → offset < Ram.size) ∧ (region = .registers → offset < RegisterBank.size) := by
  have inBuffer := decode_offset_lt address board.bios.window board.cartridge.window
  have isLocation : decode address board.bios.window board.cartridge.window = ⟨region, offset⟩ :=
    located
  rw [isLocation, regionOf_eq_of_locate located] at inBuffer
  constructor
  · rintro rfl
    exact inBuffer
  · rintro rfl
    exact inBuffer

/-! ## Local effects -/

/-- What a bus write has changed, by the region that it goes to. -/
structure StoresLocally (board : Board) (address : UInt32) (data : UInt8) (report : Store)
    (changed : Board) : Prop where
  /-- Of a write to an image only the attempt is kept. -/
  image : regionOf address = .bios ∨ regionOf address = .cartridge →
    changed.incidents.illegalWrites.toNat = board.incidents.illegalWrites.toNat + 1 ∧
    changed = { board with incidents :=
      { board.incidents with illegalWrites := changed.incidents.illegalWrites } }
  /-- Working memory has the byte at every address of one cell. -/
  ram : regionOf address = .ram →
    (∀ other, board.locate other = board.locate address → changed.view other = .ok data) ∧
    (∀ place, place ≠ (board.locate address).offset →
      Cells.get changed.ram.cells place = Cells.get board.ram.cells place) ∧
    changed = { board with ram := changed.ram }
  /-- A register write that is refused is counted, and that is all. -/
  register : regionOf address = .registers → ∃ write, report = .register write ∧
    changed = { board with registers := changed.registers, incidents := changed.incidents } ∧
    (write.outcome = .readOnly ∨ write.outcome = .dropped →
      changed.incidents.droppedWrites.toNat = board.incidents.droppedWrites.toNat + 1 ∧
      changed = { board with incidents :=
        { board.incidents with droppedWrites := changed.incidents.droppedWrites } })
  elsewhere : ∀ other, board.locate other ≠ board.locate address →
    changed.view other = board.view other

theorem storesLocally_of_image (isImage : region = .bios ∨ region = .cartridge)
    (located : board.locate address = ⟨region, offset⟩)
    (stored : board.store (.write address data) = .ok (report, changed)) :
    board.StoresLocally address data report changed := by
  have isRegion : regionOf address = region := regionOf_eq_of_locate located
  rw [store_of_image isImage located] at stored
  obtain ⟨illegalWrites, added, same⟩ := of_map_eq_ok stored
  cases same
  exact
    { image := fun _ => ⟨of_add64_one added, rfl⟩
      ram := fun isRam => by grind
      register := fun isRegister => by grind
      elsewhere := fun _ _ => rfl }

theorem view_of_ram_write (located : board.locate address = ⟨.ram, offset⟩) {ram : Ram}
    (written : board.ram.write offset data = .ok ram) (other : UInt32) :
    { board with ram }.view other =
      if board.locate other = board.locate address then .ok data else board.view other := by
  have inside := (offset_lt_of_locate located).1 rfl
  have sameLocation : { board with ram }.locate other = board.locate other := rfl
  rw [view, view, sameLocation, located]
  cases located' : board.locate other with
  | mk region place =>
      cases region with
      | bios | registers | cartridge => rw [if_neg (by simp)]
      | ram =>
          have placeInside := (offset_lt_of_locate located').1 rfl
          show ram.read place = _
          rw [Ram.read_of_write written, Nat.mod_eq_of_lt inside, Nat.mod_eq_of_lt placeInside]
          simp only [Location.mk.injEq, true_and]

theorem storesLocally_of_ram (located : board.locate address = ⟨.ram, offset⟩)
    (stored : board.store (.write address data) = .ok (report, changed)) :
    board.StoresLocally address data report changed := by
  have isRegion : regionOf address = .ram := regionOf_eq_of_locate located
  have inside := (offset_lt_of_locate located).1 rfl
  rw [store_of_ram located] at stored
  obtain ⟨ram, written, same⟩ := of_map_eq_ok stored
  cases same
  have seen := view_of_ram_write located written
  refine
    { image := fun isImage => by grind
      ram := fun _ => ⟨fun other here => (seen other).trans (if_pos here), ?_, rfl⟩
      register := fun isRegister => by grind
      elsewhere := fun other away => (seen other).trans (if_neg away) }
  intro place away
  obtain ⟨cells, set, same⟩ := bind_eq_ok.mp written
  cases same
  rw [Nat.mod_eq_of_lt inside] at set
  rw [located] at away
  exact (Cells.get_of_set set place).trans (if_neg away)

/-- A register write is seen at no other address, and nothing outside the registers is
touched by it. -/
theorem view_of_registers_write (located : board.locate address = ⟨.registers, offset⟩)
    {write : RegisterWrite} {registers : RegisterBank}
    (written : board.registers.write (UInt8.ofNat offset) data = .ok (write, registers))
    (incidents : Incidents) {other : UInt32} (away : board.locate other ≠ board.locate address) :
    { board with registers, incidents }.view other = board.view other := by
  have sameLocation : { board with registers, incidents }.locate other = board.locate other := rfl
  rw [view, view, sameLocation]
  rw [located] at away
  cases located' : board.locate other with
  | mk region place =>
      cases region with
      | bios | ram | cartridge => rfl
      | registers =>
          have inside := (offset_lt_of_locate located).2 rfl
          have placeInside := (offset_lt_of_locate located').2 rfl
          refine RegisterBank.read_of_write_of_ne written fun same => away ?_
          have sameOffset := congrArg UInt8.toNat same
          rw [UInt8.toNat_ofNat_of_lt' placeInside, UInt8.toNat_ofNat_of_lt' inside] at sameOffset
          rw [located', sameOffset]

theorem storesLocally_of_register (located : board.locate address = ⟨.registers, offset⟩)
    (stored : board.store (.write address data) = .ok (report, changed)) :
    board.StoresLocally address data report changed := by
  have isRegion : regionOf address = .registers := regionOf_eq_of_locate located
  rw [store_of_register located] at stored
  obtain ⟨⟨write, after⟩, done, same⟩ := of_map_eq_ok stored
  cases same
  obtain ⟨registers, incidents, written, counted, rfl⟩ := of_writeRegister done
  have accounts := accounts_of_countWrite counted
  refine
    { image := fun isImage => by grind
      ram := fun isRam => by grind
      register := fun _ => ⟨write, rfl, rfl, fun refused => ?_⟩
      elsewhere := fun _ away => view_of_registers_write located written incidents away }
  have nothing := (RegisterBank.stored_eq_none_iff written).mpr refused
  have sameRegisters := RegisterBank.eq_of_write_of_stored_eq_none written nothing
  have noHazard : ¬ write.lcd.any Lcd.Command.isHazard = true := by
    rw [RegisterBank.lcd_of_refused written nothing]
    exact Bool.false_ne_true
  have known : write.outcome ≠ .unknown := by grind
  refine ⟨accounts.droppedWrites.once refused, ?_⟩
  have onlyDropped := accounts.rest
  rw [accounts.unknownWrites.never known, accounts.lcdHazards.never noHazard] at onlyDropped
  rw [sameRegisters]
  exact congrArg (fun incidents => { board with incidents }) onlyDropped

theorem storesLocally_of_store
    (stored : board.store (.write address data) = .ok (report, changed)) :
    board.StoresLocally address data report changed := by
  cases located : board.locate address with
  | mk region offset =>
      cases region with
      | bios => exact storesLocally_of_image (.inl rfl) located stored
      | cartridge => exact storesLocally_of_image (.inr rfl) located stored
      | ram => exact storesLocally_of_ram located stored
      | registers => exact storesLocally_of_register located stored

/-- The counters that a write calls for, if any, have room for it. -/
structure CanCountWrite (board : Board) (address : UInt32) (data : UInt8) : Prop where
  image : regionOf address = .bios ∨ regionOf address = .cartridge →
    board.incidents.illegalWrites.toNat + 1 < 2 ^ 64
  register : regionOf address = .registers → ∀ write registers,
    board.registers.write (UInt8.ofNat (board.locate address).offset) data =
      .ok (write, registers) → board.incidents.RoomFor write

/-- A write succeeds if it can be counted, and if not it fails for that. -/
theorem Sized.store_write (sized : board.Sized) (address : UInt32) (data : UInt8) :
    (board.CanCountWrite address data → Succeeds (board.store (.write address data))) ∧
      (¬ board.CanCountWrite address data →
        board.store (.write address data) = .error .overflow) := by
  cases located : board.locate address with
  | mk region offset =>
      have isRegion : regionOf address = region := regionOf_eq_of_locate located
      cases region with
      | bios | cartridge =>
          rw [store_of_image (by simp) located]
          constructor
          · intro canCount
            exact (add64_one_succeeds (canCount.image (by simp [isRegion]))).map _
          · intro cannot
            have full : ¬ board.incidents.illegalWrites.toNat + 1 < 2 ^ 64 :=
              fun room => cannot ⟨fun _ => room, fun isRegister => by grind⟩
            rw [add64_eq_error (Nat.not_lt.mp full)]
            rfl
      | ram =>
          rw [store_of_ram located]
          constructor
          · intro _
            exact (Ram.write_succeeds sized.ram offset data).map _
          · intro cannot
            exact absurd ⟨fun isImage => by grind, fun isRegister => by grind⟩ cannot
      | registers =>
          obtain ⟨⟨write, registers⟩, written⟩ :=
            RegisterBank.write_succeeds sized.registers (UInt8.ofNat offset) data
          rw [store_of_register located, writeRegister, written, ok_bind]
          dsimp only
          constructor
          · intro canCount
            have room : board.incidents.RoomFor write :=
              canCount.register isRegion write registers (by rw [located]; exact written)
            obtain ⟨counted, counting, -⟩ := countWrite_eq_ok room
            exact ⟨_, by rw [counting]; rfl⟩
          · intro cannot
            have full : ¬ board.incidents.RoomFor write := by
              refine fun room => cannot ⟨fun isImage => by grind, fun _ other _ again => ?_⟩
              rw [located, written] at again
              cases again
              exact room
            rw [countWrite_eq_error full]
            rfl

end Board

/-- A register has taken the byte. -/
def Store.isKept : Store → Bool
  | .register write => write.outcome ∈ [.stored, .acknowledged, .rematched]
  | .refused _ _ | .ram _ _ => false

/-- Of what can become of a register write, two are counted and the other is that the
register has taken the byte. -/
theorem Incidents.Accounts.writes_eq {before after : Incidents} {write : RegisterWrite}
    (accounts : before.Accounts write after) :
    after.writes + (if (Store.register write).isKept then 1 else 0) = before.writes + 1 := by
  have illegal : after.illegalWrites = before.illegalWrites := by rw [accounts.rest]
  rw [Incidents.writes, accounts.unknownWrites.toNat_eq, accounts.droppedWrites.toNat_eq, illegal,
    Incidents.writes, Store.isKept]
  cases write.outcome <;> simp <;> omega

namespace Board

variable {board changed : Board} {address : UInt32} {data : UInt8} {report : Store}

/-- A write is counted, or goes to working memory, or is kept in a register. -/
theorem writes_of_store (stored : board.store (.write address data) = .ok (report, changed)) :
    changed.incidents.writes + (if regionOf address = .ram then 1 else 0) +
        (if report.isKept then 1 else 0) = board.incidents.writes + 1 ∧
      changed.incidents.lcdHazards.toNat ≤ board.incidents.lcdHazards.toNat + 1 := by
  cases located : board.locate address with
  | mk region offset =>
      rw [regionOf_eq_of_locate located]
      cases region with
      | bios | cartridge =>
          rw [store_of_image (by simp) located] at stored
          obtain ⟨illegalWrites, added, same⟩ := of_map_eq_ok stored
          cases same
          have once := of_add64_one added
          simp only [Incidents.writes, Store.isKept, reduceCtorEq, Bool.false_eq_true, if_false]
          omega
      | ram =>
          rw [store_of_ram located] at stored
          obtain ⟨ram, -, same⟩ := of_map_eq_ok stored
          cases same
          exact ⟨rfl, Nat.le_succ _⟩
      | registers =>
          rw [store_of_register located] at stored
          obtain ⟨⟨write, after⟩, done, same⟩ := of_map_eq_ok stored
          cases same
          obtain ⟨registers, incidents, -, counted, rfl⟩ := of_writeRegister done
          have accounts := accounts_of_countWrite counted
          refine ⟨accounts.writes_eq, ?_⟩
          rw [accounts.lcdHazards.toNat_eq]
          split <;> omega

/-- Bus writes one after the other, with their reports. -/
def storeAll (board : Board) : List (UInt32 × UInt8) → Checked (List Store × Board)
  | [] => .ok ([], board)
  | (address, data) :: writes => do
    let (report, board) ← board.store (.write address data)
    let (reports, board) ← board.storeAll writes
    .ok (report :: reports, board)

/-- The books of a sequence: what has been counted meanwhile, went to working memory or was
kept in a register is all that has been written. -/
theorem writes_of_storeAll {writes : List (UInt32 × UInt8)} {board after : Board}
    {reports : List Store} (stored : board.storeAll writes = .ok (reports, after)) :
    after.incidents.writes + writes.countP (regionOf ·.1 = .ram) + reports.countP Store.isKept =
      board.incidents.writes + writes.length := by
  induction writes generalizing board reports with
  | nil =>
      cases stored
      rfl
  | cons write writes ih =>
      obtain ⟨⟨report, middle⟩, first, rest⟩ := bind_eq_ok.mp stored
      obtain ⟨⟨others, last⟩, second, same⟩ := bind_eq_ok.mp rest
      cases same
      have step := (writes_of_store first).1
      have run := ih second
      rw [List.countP_cons, List.countP_cons, List.length_cons]
      simp only [decide_eq_true_eq]
      omega

/-- A counter goes up by one for each write at most, so that it takes more writes than it
can count to make one fail. -/
theorem Sized.storeAll_succeeds {writes : List (UInt32 × UInt8)} {board : Board}
    (sized : board.Sized) (room : board.incidents.writes + writes.length < 2 ^ 64)
    (hazardRoom : board.incidents.lcdHazards.toNat + writes.length < 2 ^ 64) :
    Succeeds (board.storeAll writes) := by
  induction writes generalizing board with
  | nil => exact .ok _
  | cons write writes ih =>
      obtain ⟨address, data⟩ := write
      rw [List.length_cons] at room hazardRoom
      have canCount : board.CanCountWrite address data := by
        unfold Incidents.writes at room
        exact ⟨fun _ => by omega, fun _ _ _ _ =>
          ⟨fun _ => by omega, fun _ => by omega, fun _ => by omega⟩⟩
      obtain ⟨⟨report, middle⟩, stored⟩ := (sized.store_write address data).1 canCount
      obtain ⟨counted, hazards⟩ := writes_of_store stored
      have stillSized : middle.Sized := sized.sameFixtures (Move.store _ stored).sameFixtures
      rw [storeAll, stored, ok_bind]
      exact (ih stillSized (by omega) (by omega)).bind fun _ _ => .ok _

theorem Reachable.handled {settings : Settings} (reachable : board.Reachable)
    (handled : Handled settings board changed) : changed.Reachable := by
  cases handled with
  | moves moves => exact reachable.moves moves
  | bios _ made => exact reachable.insertBios (Rom.holds_of_bios made)
  | cartridge made => exact reachable.insertCartridge (Rom.holds_of_cartridge made)
  | setTable _ => exact reachable.replaceAudit rfl
  | powerOn => exact reachable.powerOn settings

theorem Ready.canCountWrite (ready : board.Ready 1) (address : UInt32) (data : UInt8) :
    board.CanCountWrite address data :=
  ⟨fun _ => ready.count_lt .illegalWrites, fun _ _ _ _ =>
    ⟨fun _ => ready.count_lt .unknownWrites, fun _ => ready.count_lt .droppedWrites,
      fun _ => ready.count_lt .lcdHazards⟩⟩

end Board

/-- The board that a history has led to is a reachable board. -/
theorem Machine.History.board_reachable {σ : Type} [Core σ] {n : Nat}
    {outcome : Checked (Machine σ)} (history : History n outcome) (machine : Machine σ)
    (done : outcome = .ok machine) : machine.board.Reachable := by
  induction history with
  | start core settings =>
      cases done
      rw [Machine.start, board_holdReset]
      exact .initial settings
  | act action fits _ ih => exact (ih _ rfl).handled (handled_of_perform fits done)
  | restore _ saved written ih savedIh =>
      rw [restore_eq_carriedTo (saved.stocked _ rfl).toIntact written] at done
      cases done
      exact (savedIh _ rfl).restore (ih _ rfl)

/-- On every reachable board a bus write has a local effect and no other, unless a counter
for it is full, which is a fault. Short histories leave no counter full. Starting with
nothing counted, the counters, the writes to working memory and those kept in registers
add up to the writes that were made; and a sequence of writes that is short enough to be
counted succeeds. -/
theorem writes_are_local_and_accounted :
    (∀ board : Board, board.Reachable → ∀ address data,
      (board.CanCountWrite address data →
        ∃ report changed, board.store (.write address data) = .ok (report, changed) ∧
          board.StoresLocally address data report changed) ∧
      (¬ board.CanCountWrite address data →
        board.store (.write address data) = .error .overflow)) ∧
    (∀ (σ : Type) [Core σ] (n : Nat) (machine : Machine σ),
      Machine.History n (.ok machine) → n < 2 ^ 32 →
        machine.board.Reachable ∧ ∀ address data, machine.board.CanCountWrite address data) ∧
    (∀ board : Board, board.Reachable → board.incidents = {} →
      ∀ writes : List (UInt32 × UInt8),
        (∀ reports after, board.storeAll writes = .ok (reports, after) →
          after.incidents.illegalWrites.toNat + after.incidents.droppedWrites.toNat +
              after.incidents.unknownWrites.toNat + writes.countP (regionOf ·.1 = .ram) +
              reports.countP Store.isKept = writes.length) ∧
        (writes.length < 2 ^ 64 →
          ∃ reports after, board.storeAll writes = .ok (reports, after))) := by
  refine ⟨?_, ?_, ?_⟩
  · intro board reachable address data
    obtain ⟨succeeds, fails⟩ := reachable.sized_supplied.1.store_write address data
    refine ⟨fun canCount => ?_, fails⟩
    obtain ⟨⟨report, changed⟩, stored⟩ := succeeds canCount
    exact ⟨report, changed, stored, Board.storesLocally_of_store stored⟩
  · intro σ _ n machine history short
    obtain ⟨_, ⟨⟩, aged⟩ := history.aged short
    have ready : machine.board.Ready 1 := aged.bounded.ready (by omega)
    exact ⟨history.board_reachable machine rfl, ready.canCountWrite⟩
  · intro board reachable fresh writes
    have nothing : board.incidents.writes = 0 ∧ board.incidents.lcdHazards.toNat = 0 := by
      rw [fresh]
      exact ⟨rfl, rfl⟩
    constructor
    · intro reports after stored
      have books := Board.writes_of_storeAll stored
      rw [nothing.1, Nat.zero_add] at books
      exact books
    · intro short
      obtain ⟨⟨reports, after⟩, stored⟩ := reachable.sized_supplied.1.storeAll_succeeds
        (by rwa [nothing.1, Nat.zero_add]) (by rwa [nothing.2, Nat.zero_add])
      exact ⟨reports, after, stored⟩

end Handheld
