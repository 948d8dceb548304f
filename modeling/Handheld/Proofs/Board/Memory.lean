/-
# The bus as a flat memory

As long as no register is written, the board is a memory to the core: two images
that repeat over their windows, working memory that keeps what was written last,
and a register window in which only the key pad shows anything. The rate of the
refresh controller is the exception, as it moves by itself.

A board *shows* such a memory when it answers like it. Serving the bus keeps
this, and so do the clock and the registers' own ticking.
-/

import Mathlib.Logic.Function.Basic
import Handheld.Proofs.AddressMap
import Handheld.Proofs.Refresh.Hunt
import Handheld.Proofs.Rom

namespace Handheld

open Checked

/-- Two images, and the content of working memory by offset. -/
structure FlatMemory where
  bios : Array UInt8
  cartridge : Array UInt8
  ram : Nat → UInt8

namespace FlatMemory

/-- The byte at an address. -/
def byteAt (memory : FlatMemory) (address : UInt32) : UInt8 :=
  if lineOf address < 0x1000 then Rom.padded memory.bios (lineOf address)
  else if lineOf address < 0x2000 then memory.ram (lineOf address % 0x1000)
  else if lineOf address < 0x2100 then if lineOf address = 0x2052 then 0xFF else 0
  else Rom.padded memory.cartridge (lineOf address)

/-- Writing outside working memory has no effect. -/
def write (memory : FlatMemory) (address : UInt32) (data : UInt8) : FlatMemory :=
  if 0x1000 ≤ lineOf address ∧ lineOf address < 0x2000 then
    { memory with ram := Function.update memory.ram (lineOf address % 0x1000) data }
  else memory

end FlatMemory

/-- The registers are as at power-on, apart from the hunt of the refresh
controller. -/
structure RegisterBank.Untouched (bank : RegisterBank) : Prop where
  cells : ∀ i < RegisterBank.size, Cells.get bank.cells i = .ok 0
  seconds : bank.seconds = .initial
  mode : bank.refresh.mode = 0
  keyPad : bank.keyPad = .released

namespace RegisterBank

variable {bank : RegisterBank}

theorem untouched_initial : initial.Untouched where
  cells _ inside := Cells.get_replicate inside
  seconds := rfl
  mode := rfl
  keyPad := rfl

/-- The key pad and the refresh rate have one register each. -/
theorem role_of_ne {offset : UInt8} (noPad : offset ≠ 0x52) (noRate : offset ≠ 0x81) :
    Register.role offset ≠ .keyPad ∧ Register.role offset ≠ .refreshRate := by
  unfold Register.role
  split
  case h_9 value => exact absurd (UInt8.toNat.inj value) noPad
  case h_12 value => exact absurd (UInt8.toNat.inj value) noRate
  case h_17 =>
    split
    · exact ⟨nofun, nofun⟩
    · split <;> exact ⟨nofun, nofun⟩
  all_goals exact ⟨nofun, nofun⟩

/-- All keys are up, and everything else that can be read is zero. -/
theorem Untouched.read (untouched : bank.Untouched) {offset : UInt8} (noRate : offset ≠ 0x81) :
    bank.read offset = .ok (if offset = 0x52 then 0xFF else 0) := by
  by_cases pad : offset = 0x52
  · subst pad
    show Except.ok bank.keyPad.latch = _
    rw [untouched.keyPad]
    rfl
  obtain ⟨noPadRole, noRateRole⟩ := role_of_ne pad noRate
  have zero : Cells.get bank.cells offset.toNat = .ok 0 := untouched.cells _ offset.toNat_lt
  rw [if_neg pad]
  unfold RegisterBank.read
  cases role : Register.role offset with
  | keyPad => exact absurd role noPadRole
  | refreshRate => exact absurd role noRateRole
  | secondsControl =>
      rw [untouched.seconds]
      rfl
  | secondsByte index =>
      rw [untouched.seconds]
      simp [SecondsCounter.byte, SecondsCounter.initial]
  | refreshMode => rw [untouched.mode]
  | interruptLatch | cartridgeBus | mapByte index | lcdControl | plain | unknown | absent =>
      exact zero

/-- Without a mode the refresh controller hunts, but completes no frame. -/
theorem tick_of_mode_eq_zero {controller : RefreshController} (off : controller.mode = 0) :
    controller.tick.1 ≠ .frame ∧ controller.tick.2.mode = 0 := by
  have inactive : controller.isActive = false := by
    rw [RefreshController.isActive, off]
    rfl
  obtain ⟨-, active, -⟩ | ⟨-, -, -, ticked⟩ | ⟨-, -, ticked⟩ | ⟨-, -, ticked⟩ :=
    controller.tick_cases
  · exact absurd (inactive.symm.trans active) Bool.false_ne_true
  · rw [ticked]
    exact ⟨by simp, off⟩
  · rw [ticked]
    exact ⟨by simp, off⟩
  · rw [ticked]
    exact ⟨by simp, off⟩

/-- Ticking moves the hunt only, and never completes a frame. -/
theorem Untouched.tick (untouched : bank.Untouched) (onSeconds onRefresh : Bool) :
    ∃ tick changed, bank.tick onSeconds onRefresh = .ok (tick, changed) ∧
      tick ≠ some .frame ∧ changed.Untouched := by
  have seconds : bank.seconds.tick onSeconds = .ok .initial := by
    rw [untouched.seconds]
    rfl
  obtain ⟨noFrame, mode⟩ := tick_of_mode_eq_zero untouched.mode
  cases onRefresh with
  | false =>
      refine ⟨none, { bank with seconds := .initial }, ?_, nofun,
        { untouched with seconds := rfl }⟩
      rw [RegisterBank.tick, seconds]
      rfl
  | true =>
      refine ⟨some bank.refresh.tick.1,
        { bank with seconds := .initial, refresh := bank.refresh.tick.2 }, ?_, ?_,
        { untouched with seconds := rfl, mode := mode }⟩
      · rw [RegisterBank.tick, seconds]
        rfl
      · rw [Ne, Option.some.injEq]
        exact noFrame

end RegisterBank

namespace Board

/-- The board answers like a memory. -/
structure Shows (board : Board) (memory : FlatMemory) : Prop where
  bios : board.bios.Holds .bios memory.bios
  cartridge : board.cartridge.Holds .cartridge memory.cartridge
  ram : ∀ offset < Ram.size, Cells.get board.ram.cells offset = .ok (memory.ram offset)
  registers : board.registers.Untouched

/-- No time has passed, and at most one incident of each kind has been counted. -/
structure Served (board changed : Board) : Prop where
  ticks : changed.ticks = board.ticks
  oscillator : changed.oscillator = board.oscillator
  illegalWrites :
    changed.incidents.illegalWrites.toNat ≤ board.incidents.illegalWrites.toNat + 1
  timerReads : changed.incidents.timerReads.toNat ≤ board.incidents.timerReads.toNat + 1

variable {board : Board} {memory : FlatMemory} {address : UInt32}

theorem served_self (board : Board) : board.Served board :=
  ⟨rfl, rfl, Nat.le_succ _, Nat.le_succ _⟩

theorem countTimerRead_eq_ok {incidents : Incidents} {offset : UInt8}
    (room : incidents.timerReads.toNat + 1 < UInt64.size) :
    ∃ counted, countTimerRead incidents offset = .ok counted ∧
      counted.illegalWrites = incidents.illegalWrites ∧
      counted.timerReads.toNat ≤ incidents.timerReads.toNat + 1 := by
  unfold countTimerRead
  split
  · rw [add64_eq_ok room]
    exact ⟨_, rfl, rfl, toNat_add_one_le _⟩
  · exact ⟨incidents, rfl, rfl, Nat.le_succ _⟩

/-- The offset that decoding finds in the buffer of an image. -/
theorem padded_and_sizeMask {rom : Rom} {kind : RomKind} {image : Array UInt8}
    (holds : rom.Holds kind image) (line : UInt32) :
    Rom.padded image (line &&& sizeMask rom.window).toNat = Rom.padded image line.toNat := by
  rw [holds.window_eq, Rom.windowFor_eq_clog, toNat_and_sizeMask, Rom.padded, Rom.padded,
    Nat.mod_mod]

theorem toNat_ramOffset (address : UInt32) :
    ((address &&& busMask) &&& 0xFFF).toNat = lineOf address % 0x1000 := by
  rw [UInt32.toNat_and, toNat_and_busMask]
  exact Nat.and_two_pow_sub_one_eq_mod _ 12

theorem toNat_registerOffset {address : UInt32} (above : 0x2000 ≤ lineOf address)
    (below : lineOf address < 0x2100) :
    (UInt8.ofNat ((address &&& busMask) &&& 0xFF).toNat).toNat = lineOf address - 0x2000 := by
  have low : ((address &&& busMask) &&& 0xFF).toNat = lineOf address % 0x100 := by
    rw [UInt32.toNat_and, toNat_and_busMask]
    exact Nat.and_two_pow_sub_one_eq_mod _ 8
  rw [low, UInt8.toNat_ofNat']
  omega

/-- A bus write is the write of a register, or leaves all registers alone. -/
theorem store_cases {changed : Board} {bus : Transaction} {report : Store}
    (stored : board.store bus = .ok (report, changed)) :
    (∃ offset write, lineOf bus.address = 0x2000 + offset.toNat ∧
      board.writeRegister offset bus.data = .ok (write, changed)) ∨
    (¬ (0x2000 ≤ lineOf bus.address ∧ lineOf bus.address < 0x2100) ∧
      changed.registers = board.registers) := by
  have region := regionOf_eq bus.address
  unfold store locate decode at stored
  by_cases inside : 0x2000 ≤ lineOf bus.address ∧ lineOf bus.address < 0x2100
  · rw [if_neg (by omega), if_neg (by omega), if_pos inside.2] at region
    simp only [region] at stored
    obtain ⟨⟨write, after⟩, written, same⟩ := bind_eq_ok.mp stored
    cases same
    refine .inl ⟨_, write, ?_, written⟩
    rw [toNat_registerOffset inside.1 inside.2]
    omega
  · refine .inr ⟨inside, ?_⟩
    have noRegister : regionOf bus.address ≠ .registers := by
      intro isRegister
      rw [isRegister] at region
      split_ifs at region
      omega
    cases answers : regionOf bus.address with
    | registers => exact absurd answers noRegister
    | bios | cartridge =>
        simp only [answers] at stored
        obtain ⟨illegalWrites, -, same⟩ := bind_eq_ok.mp stored
        cases same
        rfl
    | ram =>
        simp only [answers] at stored
        obtain ⟨ram, -, same⟩ := bind_eq_ok.mp stored
        cases same
        rfl

/-- Every read but that of the refresh rate succeeds and gives the byte of the
memory. -/
theorem Shows.fetch (shows : board.Shows memory)
    (room : board.incidents.timerReads.toNat + 1 < UInt64.size)
    (noRate : lineOf address ≠ 0x2081) :
    ∃ fetch changed, board.fetch (.read address) 0 = .ok (fetch, changed) ∧
      fetch.data = memory.byteAt address ∧ changed.Shows memory ∧ board.Served changed := by
  have located : board.locate (Transaction.read address).address =
      decode address board.bios.window board.cartridge.window := decode_and_busMask ..
  have region := regionOf_eq address
  unfold Board.fetch
  rw [located, FlatMemory.byteAt]
  by_cases bios : lineOf address < 0x1000
  · rw [if_pos bios] at region ⊢
    obtain ⟨rom, fetched, holds⟩ :=
      shows.bios.fetch_eq_ok ((address &&& busMask) &&& sizeMask board.bios.window).toNat
    simp only [decode, region]
    rw [fetched, ok_bind]
    refine ⟨_, _, rfl, ?_, { shows with bios := holds }, { served_self board with }⟩
    show Rom.padded memory.bios _ = _
    rw [padded_and_sizeMask shows.bios, toNat_and_busMask]
  rw [if_neg bios] at region ⊢
  by_cases ram : lineOf address < 0x2000
  · rw [if_pos ram] at region ⊢
    have offset : ((address &&& busMask) &&& 0xFFF).toNat % Ram.size = lineOf address % 0x1000 := by
      rw [toNat_ramOffset]
      exact Nat.mod_mod _ _
    have read : board.ram.read ((address &&& busMask) &&& 0xFFF).toNat =
        .ok (memory.ram (lineOf address % 0x1000)) := by
      rw [Ram.read, offset]
      exact shows.ram _ (Nat.mod_lt _ (by decide))
    simp only [decode, region]
    rw [read, ok_bind]
    exact ⟨_, _, rfl, rfl, shows, served_self board⟩
  rw [if_neg ram] at region ⊢
  by_cases registers : lineOf address < 0x2100
  · rw [if_pos registers] at region ⊢
    have offset := toNat_registerOffset (Nat.not_lt.mp ram) registers
    have atOffset (byte : UInt8) : UInt8.ofNat ((address &&& busMask) &&& 0xFF).toNat = byte ↔
        lineOf address = 0x2000 + byte.toNat := by
      rw [← UInt8.toNat_inj, offset]
      omega
    have read := shows.registers.read (mt (atOffset 0x81).mp noRate)
    simp only [atOffset 0x52] at read
    obtain ⟨incidents, counted, illegalWrites, timerReads⟩ := countTimerRead_eq_ok room
    simp only [decode, region]
    rw [counted, ok_bind, read, ok_bind]
    refine ⟨_, _, rfl, rfl, { shows with }, { served_self board with illegalWrites := ?_, timerReads }⟩
    show incidents.illegalWrites.toNat ≤ _
    rw [illegalWrites]
    exact Nat.le_succ _
  · rw [if_neg registers] at region ⊢
    obtain ⟨rom, fetched, holds⟩ :=
      shows.cartridge.fetch_eq_ok ((address &&& busMask) &&& sizeMask board.cartridge.window).toNat
    have noBank : countBankHit board.incidents (Transaction.read address).address 0 =
        .ok board.incidents := by
      rw [countBankHit, needsBank]
      simp
    simp only [decode, region]
    rw [noBank, ok_bind, fetched, ok_bind]
    refine ⟨_, _, rfl, ?_, { shows with cartridge := holds }, { served_self board with }⟩
    show Rom.padded memory.cartridge _ = _
    rw [padded_and_sizeMask shows.cartridge, toNat_and_busMask]

/-- Working memory keeps what is written to it. -/
theorem Shows.writeRam (shows : board.Shows memory) {offset : Nat} (inside : offset < Ram.size)
    (data : UInt8) :
    ∃ ram, board.ram.write offset data = .ok ram ∧
      ({ board with ram } : Board).Shows
        { memory with ram := Function.update memory.ram offset data } := by
  have place : offset % Ram.size = offset := Nat.mod_eq_of_lt inside
  obtain ⟨cell, -⟩ := Cells.of_get_eq_ok (shows.ram offset inside)
  refine ⟨⟨board.ram.cells.set offset data⟩, ?_, { shows with ram := ?_ }⟩
  · rw [Ram.write, place, Cells.set_eq_ok data cell, ok_bind]
  · intro other otherInside
    obtain ⟨otherCell, byte⟩ := Cells.of_get_eq_ok (shows.ram other otherInside)
    have sized : other < (board.ram.cells.set offset data).size := by rwa [Array.size_set]
    show _ = Except.ok (Function.update memory.ram offset data other)
    rw [Cells.get_eq_ok sized, Array.getElem_set]
    by_cases same : offset = other
    · subst same
      rw [if_pos rfl, Function.update_self]
    · rw [if_neg same, byte, Function.update_of_ne (Ne.symm same)]

/-- Every write outside the registers succeeds and is kept by the memory. -/
theorem Shows.store (shows : board.Shows memory)
    (room : board.incidents.illegalWrites.toNat + 1 < UInt64.size)
    (noRegister : ¬ (0x2000 ≤ lineOf address ∧ lineOf address < 0x2100)) (data : UInt8) :
    ∃ store changed, board.store (.write address data) = .ok (store, changed) ∧
      changed.Shows (memory.write address data) ∧ board.Served changed := by
  have located : board.locate (Transaction.write address data).address =
      decode address board.bios.window board.cartridge.window := decode_and_busMask ..
  have region := regionOf_eq address
  have counted := toNat_add_one_le board.incidents.illegalWrites
  unfold Board.store
  rw [located]
  by_cases ram : 0x1000 ≤ lineOf address ∧ lineOf address < 0x2000
  · rw [if_neg (Nat.not_lt.mpr ram.1), if_pos ram.2] at region
    obtain ⟨written, done, shown⟩ := shows.writeRam (Nat.mod_lt (lineOf address) (by decide)) data
    have offset : ((address &&& busMask) &&& 0xFFF).toNat = lineOf address % Ram.size :=
      toNat_ramOffset address
    simp only [decode, region, offset]
    rw [show (Transaction.write address data).data = data from rfl, done, ok_bind,
      FlatMemory.write, if_pos ram]
    exact ⟨_, _, rfl, shown, { served_self board with }⟩
  · -- Both images refuse the write in the same way.
    have refused : regionOf address = .bios ∨ regionOf address = .cartridge := by
      rw [region]
      split_ifs with bios belowRegisters belowCartridge
      · exact .inl rfl
      · exact absurd ⟨Nat.not_lt.mp bios, belowRegisters⟩ ram
      · exact absurd ⟨Nat.not_lt.mp belowRegisters, belowCartridge⟩ noRegister
      · exact .inr rfl
    rw [FlatMemory.write, if_neg ram]
    rcases refused with region | region
    · simp only [decode, region]
      rw [add64_eq_ok room, ok_bind]
      exact ⟨_, _, rfl, { shows with }, { served_self board with illegalWrites := counted }⟩
    · simp only [decode, region]
      rw [add64_eq_ok room, ok_bind]
      exact ⟨_, _, rfl, { shows with }, { served_self board with illegalWrites := counted }⟩

end Board

end Handheld
