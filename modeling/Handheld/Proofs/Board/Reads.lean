/-
# Bus reads leave a record

A bus read marks the byte of an image that it finds, and some reads are counted as
incidents. This record is all that a read changes, and nothing else on the board looks at
it: every other operation does the same whether the record is kept or forgotten.

A read cannot fail for want of a number to count it with. The half cycles are counted
too, and two of them pass for every read.
-/

import Handheld.Proofs.Board.Progress

namespace Handheld

open Checked

/-- Forgetting what was read leaves the same of two states of a socket. -/
theorem Rom.SameImage.clearTouched_eq {rom other : Rom} (same : rom.SameImage other) :
    other.clearTouched = rom.clearTouched := by
  unfold Rom.clearTouched
  rw [same.kind, same.buffer, same.length, same.touched]

theorem Rom.get_of_fetch {rom changed : Rom} {offset : Nat} {data : UInt8}
    (fetched : rom.fetch offset = .ok (data, changed)) : rom.get offset = .ok data := by
  obtain ⟨touched, -, rest⟩ := bind_eq_ok.mp fetched
  obtain ⟨byte, found, same⟩ := bind_eq_ok.mp rest
  cases same
  exact found

namespace Incidents

/-- The incidents without those of reads. -/
def forgetReads (incidents : Incidents) : Incidents :=
  { incidents with timerReads := 0, bankHits := 0 }

/-- The number of reads among the incidents. -/
def reads (incidents : Incidents) : Nat :=
  incidents.timerReads.toNat + incidents.bankHits.toNat

end Incidents

namespace Board

/-- The board without its record of reads. -/
def forgetReads (board : Board) : Board :=
  { board with
    bios := board.bios.clearTouched
    cartridge := board.cartridge.clearTouched
    incidents := board.incidents.forgetReads }

/-- An operation is blind to reads if it gives the same result without their record, and
leaves the same otherwise. -/
def Blind {β : Type} (operation : Board → Checked (β × Board)) : Prop :=
  ∀ board, operation board.forgetReads =
    (operation board).map fun (result, changed) => (result, changed.forgetReads)

variable {board changed : Board} {incidents counted : Incidents} {passed left : Nat}

theorem blind_halfCycle : Blind halfCycle := by
  intro board
  unfold halfCycle
  simp only [map_chain]
  rfl

theorem blind_latchEdges (probes : Probes) : Blind (latchEdges · probes) := by
  intro board
  unfold latchEdges
  simp only [map_chain]
  rfl

theorem blind_tickRegisters (settings : Settings) : Blind (tickRegisters · settings) := by
  intro board
  unfold tickRegisters
  simp only [map_chain]
  rfl

theorem blind_present (memory : Option (Array UInt8)) (contrast : Option UInt8) :
    Blind (present · memory contrast) := by
  intro board
  unfold present
  cases memory with
  | some planar =>
      simp only [map_chain]
      rfl
  | none =>
      simp only [map_chain]
      rfl

theorem blind_writeRegister (offset data : UInt8) : Blind (writeRegister · offset data) := by
  intro board
  have counts (write : RegisterWrite) : countWrite board.incidents.forgetReads write =
      (countWrite board.incidents write).map Incidents.forgetReads :=
    countWrite_with board.incidents write 0 0
  unfold writeRegister
  simp only [map_chain]
  show (board.registers.write offset data >>= _) = _
  congr
  funext written
  show (countWrite board.incidents.forgetReads written.1 >>= _) = _
  rw [counts, chain_map]
  rfl

theorem blind_store (bus : Transaction) : Blind (store · bus) := by
  intro board
  have sameMap : board.forgetReads.locate = board.locate := rfl
  unfold store
  beta_reduce
  rw [sameMap]
  obtain ⟨region, offset⟩ := board.locate bus.address
  cases region with
  | bios | cartridge | ram =>
      simp only [map_chain]
      rfl
  | registers =>
      have blind := blind_writeRegister (UInt8.ofNat offset) bus.data board
      beta_reduce at blind
      simp only [map_chain]
      rw [blind, chain_map]
      rfl

theorem of_countTimerRead {offset : UInt8}
    (done : countTimerRead incidents offset = .ok counted) :
    counted.forgetReads = incidents.forgetReads ∧ counted.reads ≤ incidents.reads + 1 := by
  unfold countTimerRead at done
  split at done
  · obtain ⟨timerReads, added, same⟩ := bind_eq_ok.mp done
    have sum := of_add64_one added
    cases same
    refine ⟨rfl, ?_⟩
    simp only [Incidents.reads]
    omega
  · cases done
    exact ⟨rfl, Nat.le_succ _⟩

theorem of_countBankHit {address : UInt32} {codeBank : UInt8}
    (done : countBankHit incidents address codeBank = .ok counted) :
    counted.forgetReads = incidents.forgetReads ∧ counted.reads ≤ incidents.reads + 1 := by
  unfold countBankHit at done
  split at done
  · obtain ⟨bankHits, added, same⟩ := bind_eq_ok.mp done
    have sum := of_add64_one added
    cases same
    refine ⟨rfl, ?_⟩
    simp only [Incidents.reads]
    omega
  · cases done
    exact ⟨rfl, Nat.le_succ _⟩

/-- A read gives the byte that an observer sees, and changes nothing but the record, in
which it counts once at most. -/
theorem reads_of_fetch {bus : Transaction} {codeBank : UInt8} {report : Fetch}
    (fetched : board.fetch bus codeBank = .ok (report, changed)) :
    board.view bus.address = .ok report.data ∧ changed.forgetReads = board.forgetReads ∧
      changed.incidents.reads ≤ board.incidents.reads + 1 := by
  unfold fetch at fetched
  unfold view
  generalize board.locate bus.address = location at fetched ⊢
  obtain ⟨region, offset⟩ := location
  cases region with
  | bios =>
      obtain ⟨⟨data, bios⟩, found, same⟩ := bind_eq_ok.mp fetched
      have sameImage := (Rom.sameImage_of_fetch found).clearTouched_eq
      cases same
      refine ⟨Rom.get_of_fetch found, ?_, Nat.le_succ _⟩
      unfold forgetReads
      rw [sameImage]
  | ram =>
      obtain ⟨data, found, same⟩ := bind_eq_ok.mp fetched
      cases same
      exact ⟨found, rfl, Nat.le_succ _⟩
  | registers =>
      obtain ⟨incidents, counted, rest⟩ := bind_eq_ok.mp fetched
      obtain ⟨data, found, same⟩ := bind_eq_ok.mp rest
      have once := of_countTimerRead counted
      cases same
      refine ⟨found, ?_, once.2⟩
      unfold forgetReads
      rw [once.1]
  | cartridge =>
      obtain ⟨incidents, counted, rest⟩ := bind_eq_ok.mp fetched
      obtain ⟨⟨data, cartridge⟩, found, same⟩ := bind_eq_ok.mp rest
      have once := of_countBankHit counted
      have sameImage := (Rom.sameImage_of_fetch found).clearTouched_eq
      cases same
      refine ⟨Rom.get_of_fetch found, ?_, once.2⟩
      unfold forgetReads
      rw [sameImage, once.1]

/-- Every read finds its byte, and `passed` half cycles have gone by since all counted
reads had their own. -/
structure Readable (board : Board) (passed : Nat) : Prop where
  ram : board.ram.cells.size = Ram.size
  registers : board.registers.cells.size = RegisterBank.size
  bios : ∃ image, board.bios.Holds .bios image
  cartridge : ∃ image, board.cartridge.Holds .cartridge image
  counted : board.incidents.reads + passed ≤ board.ticks.toNat

theorem readable_initial (settings : Settings) : (initial settings).Readable 0 where
  ram := Array.size_replicate
  registers := Array.size_replicate
  bios := ⟨_, Rom.empty_holds .bios⟩
  cartridge := ⟨_, Rom.empty_holds .cartridge⟩
  counted := le_rfl

namespace Readable

variable (readable : board.Readable passed)
include readable

theorem mono (less : left ≤ passed) : board.Readable left :=
  { readable with counted := (Nat.add_le_add_left less _).trans readable.counted }

/-- A board stays readable through a move, if the clock keeps ahead of the reads. -/
theorem move (moved : Move board changed)
    (counted : changed.incidents.reads + left ≤ changed.ticks.toNat) : changed.Readable left := by
  have same := moved.sameFixtures
  obtain ⟨bios, biosHeld⟩ := readable.bios
  obtain ⟨cartridge, cartridgeHeld⟩ := readable.cartridge
  exact
    { ram := same.ram.trans readable.ram
      registers := same.registers.trans readable.registers
      bios := ⟨bios, biosHeld.sameImage same.bios⟩
      cartridge := ⟨cartridge, cartridgeHeld.sameImage same.cartridge⟩
      counted }

theorem halfCycle {toggled : Option Bool} (done : board.halfCycle = .ok (toggled, changed)) :
    changed.Readable (passed + 1) := by
  apply readable.move (.halfCycle done)
  have counted := readable.counted
  obtain ⟨oscillator, -, ticks, rfl⟩ := of_halfCycle done
  dsimp only
  omega

theorem latchEdges {probes : Probes} {edges : Edges}
    (done : board.latchEdges probes = .ok (edges, changed)) : changed.Readable passed := by
  apply readable.move (.latchEdges probes done)
  obtain ⟨cells, -, rfl⟩ := of_latchEdges done
  exact readable.counted

theorem tickRegisters {settings : Settings} {tick : Option RefreshTick}
    (done : board.tickRegisters settings = .ok (tick, changed)) : changed.Readable passed := by
  apply readable.move (.tickRegisters settings done)
  obtain ⟨registers, -, rfl⟩ := of_tickRegisters done
  exact readable.counted

theorem present {memory : Option (Array UInt8)} {contrast : Option UInt8}
    {presentation : Presentation}
    (done : board.present memory contrast = .ok (presentation, changed)) :
    changed.Readable passed := by
  apply readable.move (.present memory contrast done)
  obtain ⟨ram, screen, -, -, -, rfl⟩ := of_present done
  exact readable.counted

theorem writeRegister {offset data : UInt8} {write : RegisterWrite}
    (done : board.writeRegister offset data = .ok (write, changed)) : changed.Readable passed := by
  apply readable.move (.writeRegister offset data done)
  obtain ⟨registers, incidents, -, counted, rfl⟩ := of_writeRegister done
  have sameReads := reads_of_countWrite counted
  dsimp only
  rw [Incidents.reads, sameReads.1, sameReads.2]
  exact readable.counted

theorem store {bus : Transaction} {report : Store}
    (done : board.store bus = .ok (report, changed)) : changed.Readable passed := by
  have moved := Move.store bus done
  unfold Board.store at done
  generalize board.locate bus.address = location at done
  obtain ⟨region, offset⟩ := location
  cases region with
  | bios | cartridge =>
      obtain ⟨illegalWrites, -, same⟩ := bind_eq_ok.mp done
      cases same
      exact readable.move moved readable.counted
  | ram =>
      obtain ⟨ram, -, same⟩ := bind_eq_ok.mp done
      cases same
      exact readable.move moved readable.counted
  | registers =>
      obtain ⟨⟨write, after⟩, written, same⟩ := bind_eq_ok.mp done
      cases same
      exact readable.writeRegister written

omit readable in
/-- A read takes up one half cycle. -/
theorem fetch {bus : Transaction} {codeBank : UInt8} {report : Fetch}
    (readable : board.Readable (passed + 1))
    (done : board.fetch bus codeBank = .ok (report, changed)) : changed.Readable passed := by
  have counted := readable.counted
  obtain ⟨-, sameRest, once⟩ := reads_of_fetch done
  have sameTime := congrArg ticks sameRest
  change changed.ticks = board.ticks at sameTime
  apply readable.move (.fetch bus codeBank done)
  rw [sameTime]
  omega

theorem powerOn (settings : Settings) : (board.powerOn settings).Readable 0 := by
  obtain ⟨bios, biosHeld⟩ := readable.bios
  obtain ⟨cartridge, cartridgeHeld⟩ := readable.cartridge
  exact
    { readable_initial settings with
      bios := ⟨bios, biosHeld.clearTouched⟩
      cartridge := ⟨cartridge, cartridgeHeld.clearTouched⟩ }

theorem coverage_succeeds : Succeeds board.coverage := by
  obtain ⟨bios, biosHeld⟩ := readable.bios
  obtain ⟨cartridge, cartridgeHeld⟩ := readable.cartridge
  exact Board.coverage_succeeds biosHeld cartridgeHeld

omit readable in
/-- Once a cycle has passed, there is room to count a read. -/
theorem fetch_succeeds (readable : board.Readable 2) (bus : Transaction) (codeBank : UInt8) :
    Succeeds (board.fetch bus codeBank) := by
  have counted := readable.counted
  have time := board.ticks.toNat_lt
  unfold Incidents.reads at counted
  obtain ⟨bios, biosHeld⟩ := readable.bios
  obtain ⟨cartridge, cartridgeHeld⟩ := readable.cartridge
  exact Board.fetch_succeeds biosHeld cartridgeHeld readable.ram.ge readable.registers.ge
    (by omega) (by omega) bus codeBank

omit readable in
/-- Once a cycle has passed, a read succeeds with the byte that an observer sees. It
changes only the record, and the board is readable again. -/
theorem fetch_eq_ok (readable : board.Readable 2) (bus : Transaction) (codeBank : UInt8) :
    ∃ report changed, board.fetch bus codeBank = .ok (report, changed) ∧
      board.view bus.address = .ok report.data ∧ changed.forgetReads = board.forgetReads ∧
      changed.Readable 0 := by
  obtain ⟨⟨report, changed⟩, fetched⟩ := readable.fetch_succeeds bus codeBank
  obtain ⟨seen, sameRest, -⟩ := reads_of_fetch fetched
  exact ⟨report, changed, fetched, seen, sameRest, (readable.fetch fetched).mono (Nat.zero_le _)⟩

end Readable

end Board

end Handheld
