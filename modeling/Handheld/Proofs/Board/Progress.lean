/-
# Boards on which everything succeeds

The operations of a board find every cell they ask for as soon as its memories have
at least their usual sizes and each of its sockets holds an image. And as long as its
counters are far enough from the largest word, each of them has room for one more. A
board of which both is true is *ready*: no operation of it runs into a fault.

A move takes up some of that room, so a board is ready for a number of moves. Nothing
is said about where such a board comes from. One that is *bounded*, that is intact, in
range and of a known load, is ready for as many moves as its load leaves.
-/

import Handheld.Proofs.Board.Limits
import Handheld.Proofs.Lcd.Picture
import Handheld.Proofs.Machine.Reachable

namespace Handheld

open Checked

theorem Cells.get_succeeds {α : Type} {cells : Array α} {i : Nat} (inside : i < cells.size) :
    Succeeds (Cells.get cells i) :=
  ⟨_, Cells.get_eq_ok inside⟩

theorem Cells.set_succeeds {α : Type} {cells : Array α} {i : Nat} (value : α)
    (inside : i < cells.size) : Succeeds (Cells.set cells i value) :=
  ⟨_, Cells.set_eq_ok value inside⟩

theorem add64_one_succeeds {count : UInt64} (room : count.toNat + 1 < 2 ^ 64) :
    Succeeds (add64 count 1) :=
  ⟨_, add64_eq_ok room⟩

namespace Ram

variable {ram : Ram} (sized : size ≤ ram.cells.size) (offset : Nat)
include sized

theorem place_lt : offset % size < ram.cells.size :=
  Nat.lt_of_lt_of_le (Nat.mod_lt _ (by decide)) sized

theorem read_succeeds : Succeeds (ram.read offset) :=
  Cells.get_succeeds (place_lt sized offset)

theorem write_succeeds (data : UInt8) : Succeeds (ram.write offset data) :=
  (Cells.set_succeeds data (place_lt sized offset)).bind fun _ _ => .ok _

end Ram

namespace Rom.Holds

variable {rom : Rom} {kind : RomKind} {image : Array UInt8} (holds : rom.Holds kind image)
  (offset : Nat)
include holds

theorem get_succeeds : Succeeds (rom.get offset) :=
  Cells.get_succeeds (holds.place_lt offset).1

theorem fetch_succeeds : Succeeds (rom.fetch offset) := by
  obtain ⟨inside, room⟩ := holds.place_lt offset
  refine Succeeds.bind (Bitmap.insert_eq_ok room) fun touched _ => ?_
  exact (Cells.get_succeeds inside).bind fun data _ => .ok (data, { rom with touched })

theorem isTouched_succeeds : Succeeds (rom.isTouched offset) :=
  ⟨_, Bitmap.contains_eq (holds.place_lt offset).2⟩

omit offset in
theorem countTouched_succeeds (n count : Nat) : Succeeds (rom.countTouched n count) := by
  induction n generalizing count with
  | zero => exact .ok count
  | succ n ih => exact (holds.isTouched_succeeds n).bind fun touched _ => ih _

omit offset in
theorem touchedCount_succeeds : Succeeds rom.touchedCount :=
  holds.countTouched_succeeds _ _

end Rom.Holds

namespace RegisterBank

variable {bank : RegisterBank} (sized : size ≤ bank.cells.size) (offset : UInt8)
include sized

theorem offset_lt : offset.toNat < bank.cells.size :=
  Nat.lt_of_lt_of_le offset.toNat_lt sized

theorem read_succeeds : Succeeds (bank.read offset) := by
  have cell := Cells.get_succeeds (offset_lt sized offset)
  unfold read
  cases Register.role offset with
  | secondsControl | secondsByte index | keyPad | refreshMode | refreshRate => exact .ok _
  | interruptLatch | cartridgeBus | mapByte index | lcdControl | plain | unknown | absent =>
      exact cell

theorem applyWrite_succeeds (data : UInt8) : Succeeds (bank.applyWrite offset data) := by
  unfold applyWrite
  cases Register.role offset with
  | interruptLatch =>
      exact (Cells.get_succeeds (offset_lt sized offset)).bind fun latched _ => .ok _
  | secondsControl | secondsByte index | keyPad | cartridgeBus | refreshMode | refreshRate
  | mapByte index | lcdControl | plain | unknown | absent => exact .ok _

theorem store_succeeds (byte : Option UInt8) : Succeeds (bank.store offset byte) := by
  cases byte with
  | none => exact .ok bank
  | some byte =>
      exact (Cells.set_succeeds byte (offset_lt sized offset)).bind fun cells _ => .ok _

theorem write_succeeds (data : UInt8) : Succeeds (bank.write offset data) := by
  refine (applyWrite_succeeds sized offset data).bind ?_
  rintro ⟨report, middle⟩ applied
  have middleSized : size ≤ middle.cells.size := by rwa [cells_of_applyWrite applied]
  exact (store_succeeds middleSized offset report.stored).bind fun after _ => .ok (report, after)

theorem raise_succeeds (mask : UInt8) : Succeeds (bank.raise offset mask) := by
  have inside := offset_lt sized offset
  unfold raise
  split
  · exact (Cells.get_succeeds inside).bind fun latched _ =>
      (Cells.set_succeeds _ inside).bind fun cells _ => .ok _
  · exact .ok _

omit sized offset in
theorem tick_succeeds (room : bank.seconds.count.toNat + 1 < 2 ^ 32) (onSeconds onRefresh : Bool) :
    Succeeds (bank.tick onSeconds onRefresh) := by
  have counted : Succeeds (bank.seconds.counted onSeconds) := by
    unfold SecondsCounter.counted
    split
    · exact Succeeds.map ⟨_, add32_eq_ok room⟩ _
    · exact .ok _
  have seconds : Succeeds (bank.seconds.tick onSeconds) := by
    rw [SecondsCounter.tick_eq]
    exact counted.map _
  refine seconds.bind fun after _ => ?_
  split
  · exact .ok _
  · exact .ok _

omit sized offset in
/-- The seconds counter has room for a step, because it is cut to 24 bits. -/
theorem InRange.tick_succeeds (ranges : bank.InRange) (onSeconds onRefresh : Bool) :
    Succeeds (bank.tick onSeconds onRefresh) := by
  have small := ranges.seconds
  exact RegisterBank.tick_succeeds (by omega) onSeconds onRefresh

end RegisterBank

/-- Every pixel of the panel has its place on a screen of full size. -/
theorem paint_succeeds (planar : Array UInt8) (contrast : UInt8) (orientation : Orientation)
    {pixels : Array UInt8} (sized : Lcd.width * Lcd.height ≤ pixels.size) :
    Succeeds (paint planar contrast orientation pixels) :=
  let ⟨painted, done, _⟩ := paint_overwrites planar contrast orientation sized
  ⟨painted, done⟩

/-- The tile map, the tiles and the composed bytes all lie in working memory. -/
theorem RefreshController.compose_succeeds (controller : RefreshController) {ram : Ram}
    (sized : Ram.size ≤ ram.cells.size) : Succeeds (controller.compose ram) := by
  let full (state : Array UInt8 × Ram) : Prop :=
    state.1.size = Lcd.pages * Lcd.stride ∧ Ram.size ≤ state.2.cells.size
  have composed : ∃ final, controller.compose ram = .ok final ∧ full final := by
    apply rounds_eq_ok full _ ⟨Array.size_replicate, sized⟩
    intro page pageBelow before sized
    apply rounds_eq_ok full _ sized
    rintro column columnBelow ⟨planar, ram⟩ ⟨planarSized, ramSized⟩
    dsimp only at planarSized ramSized ⊢
    obtain ⟨tile, tileRead⟩ :=
      Ram.read_succeeds ramSized (tileMap + page * tileColumns + column / 8)
    obtain ⟨data, dataRead⟩ :=
      Ram.read_succeeds ramSized (controller.map.toNat + tile.toNat * 8 + column % 8)
    obtain ⟨written, ramWritten⟩ := Ram.write_succeeds ramSized (page * Lcd.width + column) data
    have inside : page * Lcd.stride + column < planar.size := by
      rw [planarSized]
      simp only [Lcd.pages, Lcd.width, Lcd.stride] at pageBelow columnBelow ⊢
      omega
    obtain ⟨drawn, planarSet⟩ := Cells.set_succeeds data inside
    refine ⟨(drawn, written), ?_, (Cells.size_of_set planarSet).trans planarSized,
      ramSized.trans (Ram.size_of_write ramWritten).ge⟩
    rw [tileRead, ok_bind, dataRead, ok_bind, ramWritten, ok_bind, planarSet, ok_bind]
  obtain ⟨final, done, -⟩ := composed
  exact ⟨final, done⟩

namespace Board

variable {incidents : Incidents}

theorem countTimerRead_succeeds (room : incidents.timerReads.toNat + 1 < 2 ^ 64) (offset : UInt8) :
    Succeeds (countTimerRead incidents offset) := by
  unfold countTimerRead
  split
  · exact (add64_one_succeeds room).bind fun _ _ => .ok _
  · exact .ok _

theorem countBankHit_succeeds (room : incidents.bankHits.toNat + 1 < 2 ^ 64) (address : UInt32)
    (codeBank : UInt8) : Succeeds (countBankHit incidents address codeBank) := by
  unfold countBankHit
  split
  · exact (add64_one_succeeds room).bind fun _ _ => .ok _
  · exact .ok _

theorem countWrite_succeeds (unknownRoom : incidents.unknownWrites.toNat + 1 < 2 ^ 64)
    (droppedRoom : incidents.droppedWrites.toNat + 1 < 2 ^ 64)
    (hazardRoom : incidents.lcdHazards.toNat + 1 < 2 ^ 64) (write : RegisterWrite) :
    Succeeds (countWrite incidents write) := by
  have outcome : Succeeds (countOutcome incidents write.outcome) := by
    cases write.outcome with
    | unknown => exact (add64_one_succeeds unknownRoom).map _
    | readOnly | dropped => exact (add64_one_succeeds droppedRoom).map _
    | stored | acknowledged | rematched => exact .ok _
  rw [countWrite_eq]
  refine outcome.bind fun counted done => ?_
  unfold countHazard
  split
  · rw [(countedOnce_of_countOutcome done).2]
    exact (add64_one_succeeds hazardRoom).map _
  · exact .ok _

/-- A bus read asks for a byte of the place it goes to, and counts there. -/
theorem fetch_succeeds {board : Board} {biosKind cartridgeKind : RomKind}
    {bios cartridge : Array UInt8} (biosHeld : board.bios.Holds biosKind bios)
    (cartridgeHeld : board.cartridge.Holds cartridgeKind cartridge)
    (ram : Ram.size ≤ board.ram.cells.size)
    (registers : RegisterBank.size ≤ board.registers.cells.size)
    (timerRoom : board.incidents.timerReads.toNat + 1 < 2 ^ 64)
    (bankRoom : board.incidents.bankHits.toNat + 1 < 2 ^ 64) (bus : Transaction)
    (codeBank : UInt8) : Succeeds (board.fetch bus codeBank) := by
  unfold Board.fetch
  obtain ⟨region, offset⟩ := board.locate bus.address
  cases region with
  | bios => exact (biosHeld.fetch_succeeds _).bind fun _ _ => .ok _
  | ram => exact (Ram.read_succeeds ram _).bind fun _ _ => .ok _
  | registers =>
      exact (countTimerRead_succeeds timerRoom _).bind fun _ _ =>
        (RegisterBank.read_succeeds registers _).bind fun _ _ => .ok _
  | cartridge =>
      exact (countBankHit_succeeds bankRoom _ _).bind fun _ _ =>
        (cartridgeHeld.fetch_succeeds _).bind fun _ _ => .ok _

/-- A report can be drawn up whatever images are in the sockets. -/
theorem coverage_succeeds {board : Board} {biosKind cartridgeKind : RomKind}
    {bios cartridge : Array UInt8} (biosHeld : board.bios.Holds biosKind bios)
    (cartridgeHeld : board.cartridge.Holds cartridgeKind cartridge) : Succeeds board.coverage :=
  biosHeld.touchedCount_succeeds.bind fun _ _ =>
    cartridgeHeld.touchedCount_succeeds.bind fun _ _ => .ok _

end Board

/-! ## Boards that are ready -/

namespace Board

/-- The memories have at least the sizes that accesses to them rely on. -/
structure Sized (board : Board) : Prop where
  ram : Ram.size ≤ board.ram.cells.size
  registers : RegisterBank.size ≤ board.registers.cells.size
  executed : (CycleTable.slots + 63) / 64 ≤ board.audit.executed.size
  pixels : Lcd.width * Lcd.height ≤ board.screen.pixels.size

/-- The counters have room for what so many moves may add to them. -/
structure Spare (board : Board) (moves : Nat) : Prop where
  counters : ∀ counter, (board.count counter).toNat + 9 * moves < 2 ^ 64
  /-- The next edge of the oscillator is one period away at most. -/
  clock : board.ticks.toNat + board.oscillator.period.toNat + 9 * moves < 2 ^ 64
  seconds : board.registers.seconds.count.toNat + 1 < 2 ^ 32

/-- Each socket holds an image, of whatever kind. -/
structure Supplied (board : Board) : Prop where
  bios : ∃ kind image, board.bios.Holds kind image
  cartridge : ∃ kind image, board.cartridge.Holds kind image

/-- The board is ready for so many moves. -/
structure Ready (board : Board) (moves : Nat) : Prop where
  sized : board.Sized
  supplied : board.Supplied
  spare : board.Spare moves

variable {board changed : Board} {moves : Nat}

/-- A move takes up the room of one. -/
theorem Spare.move (spare : board.Spare (moves + 1)) (moved : Move board changed) :
    changed.Spare moves := by
  have limits := moved.withinLimits
  constructor
  · intro counter
    have before := spare.counters counter
    have grown := limits.counts counter
    omega
  · have before := spare.clock
    have grown := limits.counts .ticks
    simp only [count] at grown
    rw [limits.period]
    omega
  · rcases limits.seconds with same | cut
    · rw [same]
      exact spare.seconds
    · omega

theorem Sized.sameFixtures (sized : board.Sized) (same : board.SameFixtures changed) :
    changed.Sized where
  ram := same.ram ▸ sized.ram
  registers := same.registers ▸ sized.registers
  executed := same.executed ▸ sized.executed
  pixels := same.pixels ▸ sized.pixels

theorem Supplied.sameFixtures (supplied : board.Supplied) (same : board.SameFixtures changed) :
    changed.Supplied where
  bios :=
    let ⟨_, _, held⟩ := supplied.bios
    ⟨_, _, held.sameImage same.bios⟩
  cartridge :=
    let ⟨_, _, held⟩ := supplied.cartridge
    ⟨_, _, held.sameImage same.cartridge⟩

/-- With the images of a supplied board any board is supplied. -/
theorem Supplied.attachImages (supplied : changed.Supplied) (board : Board) :
    (board.attachImages changed).Supplied := by
  obtain ⟨⟨_, _, bios⟩, ⟨_, _, cartridge⟩⟩ := supplied
  exact ⟨⟨_, _, bios.attach board.bios⟩, ⟨_, _, cartridge.attach board.cartridge⟩⟩

/-- A board that has moved is ready for one move less. -/
theorem Ready.move (ready : board.Ready (moves + 1)) (moved : Move board changed) :
    changed.Ready moves where
  sized := ready.sized.sameFixtures moved.sameFixtures
  supplied := ready.supplied.sameFixtures moved.sameFixtures
  spare := ready.spare.move moved

theorem Spare.mono (spare : board.Spare moves) {fewer : Nat} (le : fewer ≤ moves) :
    board.Spare fewer where
  counters counter := by
    have room := spare.counters counter
    omega
  clock := by
    have room := spare.clock
    omega
  seconds := spare.seconds

/-- Room is a matter of the counters alone. -/
theorem Spare.congr {other : Board} (spare : board.Spare moves)
    (counts : ∀ counter, other.count counter = board.count counter)
    (period : other.oscillator.period = board.oscillator.period)
    (seconds : other.registers.seconds.count = board.registers.seconds.count) :
    other.Spare moves where
  counters counter := by
    rw [counts]
    exact spare.counters counter
  clock := by
    have sameTime : other.ticks = board.ticks := counts .ticks
    rw [sameTime, period]
    exact spare.clock
  seconds := by
    rw [seconds]
    exact spare.seconds

theorem Ready.mono (ready : board.Ready moves) {fewer : Nat} (le : fewer ≤ moves) :
    board.Ready fewer :=
  { ready with spare := ready.spare.mono le }

/-- Looking at the bus from outside takes no room, as it counts nothing. -/
theorem Sized.view_succeeds (sized : board.Sized) (supplied : board.Supplied) (address : UInt32) :
    Succeeds (board.view address) := by
  obtain ⟨⟨_, _, bios⟩, ⟨_, _, cartridge⟩⟩ := supplied
  unfold Board.view
  obtain ⟨region, offset⟩ := board.locate address
  cases region with
  | bios => exact bios.get_succeeds _
  | ram => exact Ram.read_succeeds sized.ram _
  | registers => exact RegisterBank.read_succeeds sized.registers _
  | cartridge => exact cartridge.get_succeeds _

theorem Supplied.coverage_succeeds (supplied : board.Supplied) : Succeeds board.coverage := by
  obtain ⟨⟨_, _, bios⟩, ⟨_, _, cartridge⟩⟩ := supplied
  exact Board.coverage_succeeds bios cartridge

namespace Ready

section

variable (ready : board.Ready moves)
include ready

theorem latchEdges_succeeds (probes : Probes) : Succeeds (board.latchEdges probes) := by
  have latches {registers : RegisterBank} (sized : RegisterBank.size ≤ registers.cells.size)
      (rose : Bool) (source : Interrupt.Sources) : Succeeds (latch registers rose source) := by
    unfold latch
    split
    · exact (RegisterBank.raise_succeeds sized _ _).bind fun _ _ => .ok _
    · exact .ok _
  have sized := ready.sized.registers
  refine (latches sized _ _).bind fun registers latched => ?_
  obtain ⟨cells, stillSized, rfl⟩ := of_latch latched
  exact (latches (sized.trans stillSized.ge) _ _).bind fun _ _ => .ok _

theorem tickRegisters_succeeds (settings : Settings) : Succeeds (board.tickRegisters settings) :=
  (RegisterBank.tick_succeeds ready.spare.seconds _ _).bind fun _ _ => .ok _

/-- A boundary can be entered while no opcode has reached the largest count. -/
theorem observe_succeeds (pins : Pins) (probes : Probes) (timestamp : UInt64)
    (few : ∀ opcode, (board.audit.discrepancies.get opcode).toNat + 1 < 2 ^ 32) :
    Succeeds (board.audit.observe pins probes timestamp) := by
  have marks (opcode : UInt16) : Succeeds (board.audit.markExecuted opcode) := by
    unfold Audit.markExecuted
    split
    · rename_i slot
      have sized := ready.sized.executed
      have inside : opcode.toNat / 64 < board.audit.executed.size := by omega
      exact Succeeds.bind (Bitmap.insert_eq_ok inside) fun _ _ => .ok _
    · exact .ok _
  unfold Audit.observe
  split
  · exact .ok _
  split
  · exact .ok _
  refine (marks _).bind fun audit marked => ?_
  obtain ⟨executed, -, rfl⟩ := Audit.of_markExecuted marked
  dsimp only
  split
  · exact .ok _
  · refine Succeeds.bind (Succeeds.bind ⟨_, add32_eq_ok ?_⟩ fun _ _ => .ok _) fun _ _ => .ok _
    exact few probes.extendedOpcode

end

variable (ready : board.Ready 1)
include ready

theorem count_lt (counter : Counter) : (board.count counter).toNat + 1 < 2 ^ 64 := by
  have room := ready.spare.counters counter
  omega

theorem halfCycle_succeeds : Succeeds board.halfCycle := by
  have room := ready.spare.clock
  have due : Succeeds (board.oscillator.due board.ticks) := by
    unfold Oscillator.due
    split
    · exact .ok _
    · refine Succeeds.bind ⟨_, add64_eq_ok ?_⟩ fun _ _ => .ok _
      simp only [UInt64.size]
      omega
  refine due.bind fun _ _ => ?_
  exact (add64_one_succeeds (ready.count_lt .ticks)).bind fun _ _ => .ok _

theorem collectComplaints_succeeds (pins : Pins) (probes : Probes) :
    Succeeds (board.audit.collectComplaints pins probes) := by
  have room := ready.spare.counters .complaints
  have few := Complaint.length_ofFrame_le pins probes board.audit.stackLimit
  simp only [count] at room
  refine Succeeds.bind ⟨_, add64_eq_ok ?_⟩ fun _ _ => .ok _
  rw [UInt64.toNat_ofNat_of_lt' (few.trans_lt (by decide))]
  simp only [UInt64.size]
  omega

theorem present_succeeds (memory : Option (Array UInt8)) (contrast : Option UInt8) :
    Succeeds (board.present memory contrast) := by
  have shows (planar : Array UInt8) (level : UInt8) : Succeeds (board.screen.present planar level) :=
    (paint_succeeds planar level board.screen.orientation ready.sized.pixels).bind fun _ _ =>
      (add64_one_succeeds (ready.count_lt .frames)).bind fun _ _ => .ok _
  cases memory with
  | some planar =>
      refine Succeeds.bind (.ok (planar, board.ram)) ?_
      rintro - ⟨⟩
      exact (shows planar _).bind fun _ _ => .ok _
  | none =>
      refine (board.registers.refresh.compose_succeeds ready.sized.ram).bind ?_
      rintro ⟨planar, ram⟩ -
      exact (shows planar _).bind fun _ _ => .ok _

theorem fetch_succeeds (bus : Transaction) (codeBank : UInt8) :
    Succeeds (board.fetch bus codeBank) := by
  obtain ⟨⟨_, _, bios⟩, ⟨_, _, cartridge⟩⟩ := ready.supplied
  exact Board.fetch_succeeds bios cartridge ready.sized.ram ready.sized.registers
    (ready.count_lt .timerReads) (ready.count_lt .bankHits) bus codeBank

theorem writeRegister_succeeds (offset data : UInt8) : Succeeds (board.writeRegister offset data) :=
  (RegisterBank.write_succeeds ready.sized.registers offset data).bind fun _ _ =>
    (countWrite_succeeds (ready.count_lt .unknownWrites) (ready.count_lt .droppedWrites)
      (ready.count_lt .lcdHazards) _).bind fun _ _ => .ok _

theorem store_succeeds (bus : Transaction) : Succeeds (board.store bus) := by
  unfold Board.store
  obtain ⟨region, offset⟩ := board.locate bus.address
  cases region with
  | bios | cartridge =>
      exact (add64_one_succeeds (ready.count_lt .illegalWrites)).bind fun _ _ => .ok _
  | ram => exact (Ram.write_succeeds ready.sized.ram _ _).bind fun _ _ => .ok _
  | registers => exact (ready.writeRegister_succeeds _ _).bind fun _ _ => .ok _

end Ready

/-- The board is intact and in range, and its load is at most `bound`. -/
structure Bounded (board : Board) (bound : Nat) : Prop where
  intact : board.Intact
  ranges : board.registers.InRange
  period : board.oscillator.period.toNat ≤ 2 ^ 33
  load : board.load ≤ bound

variable {bound : Nat}

theorem bounded_initial (settings : Settings) : (initial settings).Bounded 0 where
  intact := intact_initial settings
  ranges := RegisterBank.inRange_initial
  period := Oscillator.toNat_periodOf_le _ _
  load := le_rfl

/-- A move keeps a board bounded, by nine more. -/
theorem Bounded.move (bounded : board.Bounded bound) (moved : Move board changed) :
    changed.Bounded (bound + 9) := by
  have limits := moved.withinLimits
  have load := bounded.load
  have grown := limits.load
  exact
    { intact := bounded.intact.sameFixtures moved.sameFixtures
      ranges := limits.ranges bounded.ranges
      period := limits.period ▸ bounded.period
      load := by omega }

theorem Bounded.mono (bounded : board.Bounded bound) {larger : Nat} (le : bound ≤ larger) :
    board.Bounded larger :=
  { bounded with load := bounded.load.trans le }

theorem Intact.sized (intact : board.Intact) : board.Sized where
  ram := intact.ram.ge
  registers := intact.registers.ge
  executed := intact.executed.ge
  pixels := intact.pixels.ge

theorem Intact.supplied (intact : board.Intact) : board.Supplied where
  bios :=
    let ⟨_, _, held⟩ := intact.bios
    ⟨_, _, held⟩
  cartridge :=
    let ⟨_, _, held⟩ := intact.cartridge
    ⟨_, _, held⟩

/-- A bounded board is ready as long as its load is far from the largest word. -/
theorem Bounded.ready (bounded : board.Bounded bound) (room : bound + 9 * moves < 2 ^ 63) :
    board.Ready moves := by
  have load := bounded.load
  have period := bounded.period
  have seconds := bounded.ranges.seconds
  have counts := board.count_le_load
  refine ⟨bounded.intact.sized, bounded.intact.supplied, fun counter => ?_, ?_, by omega⟩
  · have few := counts counter
    omega
  · have few := counts .ticks
    simp only [count] at few
    omega

/-- A way of telling for how many more moves a board is good. Every move costs one, and
as long as one is left, the board is ready for it. -/
structure Reserve (Holds : Nat → Board → Prop) : Prop where
  ready : ∀ {moves : Nat} {board : Board}, Holds (moves + 1) board → board.Ready 1
  move : ∀ {moves : Nat} {board changed : Board}, Holds (moves + 1) board →
    Move board changed → Holds moves changed
  mono : ∀ {moves fewer : Nat} {board : Board}, Holds moves board → fewer ≤ moves →
    Holds fewer board

theorem reserve_ready : Reserve fun moves board => board.Ready moves where
  ready ready := ready.mono (Nat.le_add_left _ _)
  move := Ready.move
  mono ready fewer := ready.mono fewer

/-- A bounded board can go on until its load reaches a limit. -/
theorem reserve_bounded {limit : Nat} (room : limit < 2 ^ 63) :
    Reserve fun moves board => ∃ bound, board.Bounded bound ∧ bound + 9 * moves ≤ limit where
  ready := by
    rintro moves board ⟨bound, bounded, below⟩
    exact bounded.ready (by omega)
  move := by
    rintro moves board changed ⟨bound, bounded, below⟩ moved
    exact ⟨bound + 9, bounded.move moved, by omega⟩
  mono := by
    rintro moves fewer board ⟨bound, bounded, below⟩ le
    exact ⟨bound, bounded, by omega⟩

end Board

end Handheld
