/-
# Two ways to read

The core reads over the bus, and an observer looks at the board from outside. The bus cuts
an address to its lines before it is resolved, and a read leaves a record: a mark on the
byte of an image, and a count for some reads. The observer has the address resolved as it
is and leaves nothing. Both find the same byte on every reachable board.

All that a bus read can fail for is a counter that is full. On a machine that takes more
reads than there are half cycles to count.
-/

import Handheld.Proofs.Board.Memory
import Handheld.Proofs.Board.Reachable
import Handheld.Proofs.Board.Reads

namespace Handheld

open Checked

/-- Offsets are remainders by the size of what answers. -/
theorem Board.Supplied.locate_eq {board : Board} (supplied : board.Supplied) (address : UInt32) :
    board.locate address =
      if lineOf address < 0x1000 then ⟨.bios, lineOf address % board.bios.window⟩
      else if lineOf address < 0x2000 then ⟨.ram, lineOf address % 0x1000⟩
      else if lineOf address < 0x2100 then ⟨.registers, lineOf address % 0x100⟩
      else ⟨.cartridge, lineOf address % board.cartridge.window⟩ := by
  obtain ⟨⟨_, _, bios⟩, ⟨_, _, cartridge⟩⟩ := supplied
  have masked {rom : Rom} {kind : RomKind} {image : Array UInt8} (holds : rom.Holds kind image) :
      (address &&& busMask &&& sizeMask rom.window).toNat = lineOf address % rom.window := by
    rw [holds.window_eq, Rom.windowFor_eq_clog, toNat_and_sizeMask, toNat_and_busMask]
  have low : (address &&& busMask &&& 0xFF).toNat = lineOf address % 0x100 := by
    rw [UInt32.toNat_and, toNat_and_busMask]
    exact Nat.and_two_pow_sub_one_eq_mod _ 8
  simp only [locate, decode, regionOf_eq]
  split_ifs
  · rw [masked bios]
  · rw [toNat_ramOffset]
  · rw [low]
  · rw [masked cartridge]

/-- Addresses with the same lines are the same to the bus and to an observer. -/
theorem Board.same_of_lineOf_eq (board : Board) {address other : UInt32}
    (same : lineOf address = lineOf other) :
    board.view address = board.view other ∧ Transaction.read address = Transaction.read other := by
  have latched : address &&& busMask = other &&& busMask := by
    rw [← UInt32.toNat_inj, toNat_and_busMask, toNat_and_busMask, same]
  have located : board.locate address = board.locate other := by
    rw [locate, locate, ← decode_and_busMask, latched, decode_and_busMask]
  constructor
  · rw [view, view, located]
  · rw [Transaction.read, Transaction.read, Transaction.on, Transaction.on, latched]

/-- Count something if it happened. -/
def countIf (happened : Bool) (count : UInt64) : Checked UInt64 :=
  if happened then add64 count 1 else .ok count

/-- The count has gone up by one if something happened, and is the same if not. -/
structure Counted (happened : Prop) (before after : UInt64) : Prop where
  once : happened → after.toNat = before.toNat + 1
  never : ¬ happened → after = before

theorem Counted.refl {happened : Prop} (never : ¬ happened) (count : UInt64) :
    Counted happened count count :=
  ⟨fun happens => absurd happens never, fun _ => rfl⟩

theorem countIf_eq_ok {happened : Bool} {what : Prop} (means : happened = true ↔ what)
    {count : UInt64} (room : what → count.toNat + 1 < 2 ^ 64) :
    ∃ next, countIf happened count = .ok next ∧ Counted what count next := by
  cases happened with
  | false => exact ⟨count, rfl, .refl (mt means.mpr Bool.false_ne_true) count⟩
  | true =>
      have happens := means.mp rfl
      obtain ⟨next, added⟩ := add64_one_succeeds (room happens)
      exact ⟨next, added, fun _ => of_add64_one added, absurd happens⟩

theorem countIf_eq_error {happened : Bool} (happens : happened = true) {count : UInt64}
    (full : ¬ count.toNat + 1 < 2 ^ 64) : countIf happened count = .error .overflow := by
  rw [happens]
  exact add64_eq_error (Nat.not_lt.mp full)

/-- The address is that of a timer register. -/
def ReadsTimer (address : UInt32) : Prop :=
  ∃ offset ∈ Register.timers, lineOf address = 0x2000 + offset.toNat

/-- The address lies in the upper half of a bank of the cartridge, for which the code bank
would be needed. -/
def HitsBank (address : UInt32) (codeBank : UInt8) : Prop :=
  0x2100 ≤ lineOf address ∧ (lineOf address).testBit 15 = true ∧ 0 < codeBank

theorem ReadsTimer.bounds {address : UInt32} (timer : ReadsTimer address) :
    0x2000 ≤ lineOf address ∧ lineOf address < 0x2100 := by
  obtain ⟨offset, -, line⟩ := timer
  have small := offset.toNat_lt
  omega

theorem HitsBank.above {address : UInt32} {codeBank : UInt8} (hit : HitsBank address codeBank) :
    0x2100 ≤ lineOf address :=
  hit.1

/-- If the image was read, the place of the line in it is marked; if not, all is as it
was. -/
structure Rom.Marked (read : Prop) (line : Nat) (before after : Rom) : Prop where
  image : before.SameImage after
  once : read → Bitmap.members after.touched =
    {line % before.window} ∪ Bitmap.members before.touched
  never : ¬ read → after = before

theorem Rom.Marked.refl {read : Prop} (never : ¬ read) (line : Nat) (rom : Rom) :
    Marked read line rom rom :=
  ⟨.refl rom, fun happens => absurd happens never, fun _ => rfl⟩

theorem Rom.marked_of_fetch {read : Prop} (happens : read) {rom changed : Rom} {line : Nat}
    {data : UInt8} (fetched : rom.fetch (line % rom.window) = .ok (data, changed)) :
    Marked read line rom changed := by
  refine ⟨sameImage_of_fetch fetched, fun _ => ?_, absurd happens⟩
  obtain ⟨touched, inserted, rest⟩ := bind_eq_ok.mp fetched
  obtain ⟨byte, -, same⟩ := bind_eq_ok.mp rest
  cases same
  rw [Bitmap.members_of_insert inserted, place, Nat.mod_mod]

namespace Board

variable {board changed : Board} {incidents : Incidents} {address : UInt32} {codeBank : UInt8}

theorem countTimerRead_eq (incidents : Incidents) (offset : UInt8) :
    countTimerRead incidents offset =
      (countIf (Register.isTimer offset) incidents.timerReads).map fun timerReads =>
        { incidents with timerReads } := by
  unfold countTimerRead countIf
  split
  · cases add64 incidents.timerReads 1 <;> rfl
  · rfl

theorem countBankHit_eq (incidents : Incidents) (address : UInt32) (codeBank : UInt8) :
    countBankHit incidents address codeBank =
      (countIf (needsBank address codeBank) incidents.bankHits).map fun bankHits =>
        { incidents with bankHits } := by
  unfold countBankHit countIf
  split
  · cases add64 incidents.bankHits 1 <;> rfl
  · rfl

theorem isTimer_iff (above : 0x2000 ≤ lineOf address) (below : lineOf address < 0x2100) :
    Register.isTimer (UInt8.ofNat (lineOf address % 0x100)) = true ↔ ReadsTimer address := by
  have offset : (UInt8.ofNat (lineOf address % 0x100)).toNat = lineOf address - 0x2000 := by
    rw [UInt8.toNat_ofNat']
    omega
  rw [Register.isTimer, List.contains_iff_mem]
  constructor
  · intro member
    exact ⟨_, member, by omega⟩
  · rintro ⟨timer, member, line⟩
    have same : UInt8.ofNat (lineOf address % 0x100) = timer := UInt8.toNat.inj (by omega)
    rwa [same]

theorem needsBank_iff (above : 0x2100 ≤ lineOf address) :
    needsBank (Transaction.read address).address codeBank = true ↔ HitsBank address codeBank := by
  have line : ((Transaction.read address).address &&& 0x8000).toNat =
      ((lineOf address).testBit 15).toNat * 2 ^ 15 := by
    rw [UInt32.toNat_and, ← Nat.and_two_pow]
    exact congrArg (· &&& 2 ^ 15) (toNat_and_busMask address)
  have bit : (Transaction.read address).address &&& 0x8000 ≠ 0 ↔
      (lineOf address).testBit 15 = true := by
    rw [ne_eq, ← UInt32.toNat_inj, line]
    cases (lineOf address).testBit 15 <;> decide
  rw [needsBank, Bool.and_eq_true, bne_iff_ne, bit, decide_eq_true_eq, HitsBank]
  exact ⟨fun hit => ⟨above, hit⟩, And.right⟩

/-- The record that a read leaves behind. -/
structure Record (board : Board) (address : UInt32) (codeBank : UInt8) (changed : Board) :
    Prop where
  bios : Rom.Marked (lineOf address < 0x1000) (lineOf address) board.bios changed.bios
  cartridge :
    Rom.Marked (0x2100 ≤ lineOf address) (lineOf address) board.cartridge changed.cartridge
  incidents : changed.incidents = { board.incidents with
    timerReads := changed.incidents.timerReads
    bankHits := changed.incidents.bankHits }
  timerReads :
    Counted (ReadsTimer address) board.incidents.timerReads changed.incidents.timerReads
  bankHits :
    Counted (HitsBank address codeBank) board.incidents.bankHits changed.incidents.bankHits

/-- The counter that a read calls for, if any, has room for it. -/
structure CanCount (board : Board) (address : UInt32) (codeBank : UInt8) : Prop where
  timerReads : ReadsTimer address → board.incidents.timerReads.toNat + 1 < 2 ^ 64
  bankHits : HitsBank address codeBank → board.incidents.bankHits.toNat + 1 < 2 ^ 64

theorem locate_read (board : Board) (address : UInt32) :
    board.locate (Transaction.read address).address = board.locate address :=
  decode_and_busMask ..

/-- A read that can be counted succeeds and leaves its record. -/
theorem Sized.fetch_read (sized : board.Sized) (supplied : board.Supplied)
    (canCount : board.CanCount address codeBank) :
    ∃ report changed, board.fetch (.read address) codeBank = .ok (report, changed) ∧
      board.Record address codeBank changed := by
  obtain ⟨_, _, biosHeld⟩ := supplied.bios
  obtain ⟨_, _, cartridgeHeld⟩ := supplied.cartridge
  unfold fetch
  rw [locate_read, supplied.locate_eq]
  by_cases bios : lineOf address < 0x1000
  · obtain ⟨⟨data, rom⟩, fetched⟩ := biosHeld.fetch_succeeds (lineOf address % board.bios.window)
    rw [if_pos bios]
    dsimp only
    rw [fetched, ok_bind]
    exact ⟨_, _, rfl,
      { bios := Rom.marked_of_fetch bios fetched
        cartridge := .refl (by omega) _ _
        incidents := rfl
        timerReads := .refl (mt ReadsTimer.bounds (by omega)) _
        bankHits := .refl (mt HitsBank.above (by omega)) _ }⟩
  rw [if_neg bios]
  by_cases ram : lineOf address < 0x2000
  · obtain ⟨data, read⟩ := Ram.read_succeeds sized.ram (lineOf address % 0x1000)
    rw [if_pos ram]
    dsimp only
    rw [read, ok_bind]
    exact ⟨_, _, rfl,
      { bios := .refl bios _ _
        cartridge := .refl (by omega) _ _
        incidents := rfl
        timerReads := .refl (mt ReadsTimer.bounds (by omega)) _
        bankHits := .refl (mt HitsBank.above (by omega)) _ }⟩
  rw [if_neg ram]
  by_cases registers : lineOf address < 0x2100
  · obtain ⟨timerReads, counts, counted⟩ :=
      countIf_eq_ok (isTimer_iff (Nat.not_lt.mp ram) registers) canCount.timerReads
    obtain ⟨data, read⟩ :=
      RegisterBank.read_succeeds sized.registers (UInt8.ofNat (lineOf address % 0x100))
    rw [if_pos registers]
    dsimp only
    rw [countTimerRead_eq, counts, Except.map, ok_bind, read, ok_bind]
    exact ⟨_, _, rfl,
      { bios := .refl bios _ _
        cartridge := .refl (by omega) _ _
        incidents := rfl
        timerReads := counted
        bankHits := .refl (mt HitsBank.above (by omega)) _ }⟩
  · have above : 0x2100 ≤ lineOf address := Nat.not_lt.mp registers
    obtain ⟨bankHits, counts, counted⟩ := countIf_eq_ok (needsBank_iff above) canCount.bankHits
    obtain ⟨⟨data, rom⟩, fetched⟩ :=
      cartridgeHeld.fetch_succeeds (lineOf address % board.cartridge.window)
    rw [if_neg registers]
    dsimp only
    rw [countBankHit_eq, counts, Except.map, ok_bind, fetched, ok_bind]
    exact ⟨_, _, rfl,
      { bios := .refl bios _ _
        cartridge := Rom.marked_of_fetch above fetched
        incidents := rfl
        timerReads := .refl (mt ReadsTimer.bounds (by omega)) _
        bankHits := counted }⟩

/-- A read that cannot be counted fails for that. -/
theorem Supplied.fetch_read_eq_error (supplied : board.Supplied)
    (cannot : ¬ board.CanCount address codeBank) :
    board.fetch (.read address) codeBank = .error .overflow := by
  unfold fetch
  rw [locate_read, supplied.locate_eq]
  by_cases timer : ReadsTimer address ∧ ¬ board.incidents.timerReads.toNat + 1 < 2 ^ 64
  · obtain ⟨above, below⟩ := timer.1.bounds
    rw [if_neg (by omega), if_neg (by omega), if_pos below]
    dsimp only
    rw [countTimerRead_eq, countIf_eq_error ((isTimer_iff above below).mpr timer.1) timer.2]
    rfl
  · have hit : HitsBank address codeBank ∧ ¬ board.incidents.bankHits.toNat + 1 < 2 ^ 64 := by
      by_contra noHit
      exact cannot ⟨fun reads => by_contra fun full => timer ⟨reads, full⟩,
        fun hits => by_contra fun full => noHit ⟨hits, full⟩⟩
    have above := hit.1.above
    rw [if_neg (by omega), if_neg (by omega), if_neg (by omega)]
    dsimp only
    rw [countBankHit_eq, countIf_eq_error ((needsBank_iff above).mpr hit.1) hit.2]
    rfl

/-- A read over the bus gives what an observer sees, and leaves its record and nothing
else. In particular an observer sees the same as before, wherever they look. -/
structure ReadAgrees (board : Board) (address : UInt32) (codeBank : UInt8) (report : Fetch)
    (changed : Board) : Prop extends Record board address codeBank changed where
  seen : board.view address = .ok report.data
  views : ∀ other, changed.view other = board.view other
  rest : changed = { board with
    bios := changed.bios
    cartridge := changed.cartridge
    incidents := changed.incidents }

theorem Reachable.readAgrees (reachable : board.Reachable)
    (canCount : board.CanCount address codeBank) :
    ∃ report changed, board.fetch (.read address) codeBank = .ok (report, changed) ∧
      board.ReadAgrees address codeBank report changed := by
  obtain ⟨sized, supplied⟩ := reachable.sized_supplied
  obtain ⟨report, changed, fetched, record⟩ := sized.fetch_read supplied canCount
  obtain ⟨seen, forgotten, -⟩ := reads_of_fetch fetched
  have latched : lineOf (Transaction.read address).address = lineOf address :=
    lineOf_and_busMask address
  refine ⟨report, changed, fetched, { record with seen := ?_, views := ?_, rest := ?_ }⟩
  · rw [← (board.same_of_lineOf_eq latched).1]
    exact seen
  · intro other
    have same := congrArg (view · other) forgotten
    exact same
  · obtain ⟨bios, cartridge, incidents, -, -, rfl⟩ := of_fetch fetched
    rfl

/-! ## Reads on a machine -/

/-- The clock is ahead of the reads that have been counted. -/
def ClockAhead (board : Board) : Prop :=
  0 < board.incidents.reads → board.incidents.reads < board.ticks.toNat

theorem ClockAhead.readable (ahead : board.ClockAhead) (intact : board.Intact) :
    board.Readable 0 where
  ram := intact.ram
  registers := intact.registers
  bios :=
    let ⟨image, _, held⟩ := intact.bios
    ⟨image, held⟩
  cartridge :=
    let ⟨image, _, held⟩ := intact.cartridge
    ⟨image, held⟩
  counted := by
    unfold ClockAhead at ahead
    omega

theorem ClockAhead.canCount (ahead : board.ClockAhead) (address : UInt32) (codeBank : UInt8) :
    board.CanCount address codeBank := by
  have time := board.ticks.toNat_lt
  unfold ClockAhead Incidents.reads at ahead
  exact ⟨fun _ => by omega, fun _ => by omega⟩

end Board

namespace Machine

variable {σ : Type} [Core σ] {machine : Machine σ} {passed : Nat}

theorem readable_of_capture {core : σ} {board after : Board} {due : Bool}
    {shown : Option Presentation} (readable : board.Readable passed)
    (captured : capture core board due = .ok (shown, after)) : after.Readable passed := by
  rcases of_capture captured with ⟨-, rfl⟩ | ⟨-, presentation, done⟩
  · exact readable
  · exact readable.present done

theorem readable_of_housekeep {core : σ} {settings : Settings} {sampled : Frame}
    {board after : Board} {report : StepReport} (readable : board.Readable passed)
    (kept : housekeep core settings sampled board = .ok (report, after)) :
    after.Readable passed := by
  obtain ⟨edges, latched, rendered, shown, refresh, ticked, refreshed, drawn, complaints, audit,
    latching, rendering, ticking, drawing, collecting, rfl, -⟩ := of_housekeep kept
  have latchedReadable := readable.latchEdges latching
  have shownReadable := readable_of_capture latchedReadable rendering
  have tickedReadable := shownReadable.tickRegisters ticking
  exact { readable_of_capture tickedReadable drawing with }

theorem readable_of_transfer {after : Machine σ} {sampled : Frame} {report : Transfer}
    (readable : machine.board.Readable (passed + 1))
    (done : machine.transfer sampled = .ok (report, after)) : after.board.Readable passed := by
  obtain ⟨core, board, bus, rfl, rfl | ⟨-, -, _, fetched⟩ | ⟨-, -, _, stored⟩⟩ := of_transfer done
  · exact readable.mono (Nat.le_succ _)
  · exact readable.fetch fetched
  · exact (readable.store stored).mono (Nat.le_succ _)

theorem readable_of_finishStep {after : Machine σ} {report final : StepReport}
    (readable : machine.board.Readable (passed + 1))
    (finished : machine.finishStep report = .ok (final, after)) : after.board.Readable passed := by
  obtain ⟨boundary, audit, transfer, middle, -, moved, -, rfl⟩ := of_finishStep finished
  have audited : (machine.audited report audit).board.Readable (passed + 1) := { readable with }
  exact { readable_of_transfer audited moved with }

/-- A step takes two half cycles and makes one read at most. -/
theorem readable_of_step {result : Step σ} (readable : machine.board.Readable passed)
    (awake : machine.haltedAt = none) (stepped : machine.step = .ok result) :
    result.machine.board.Readable (passed + 1) := by
  obtain ⟨high, low, report, board, rising, falling, kept, rest⟩ := of_step awake stepped
  obtain ⟨_, _, highBoard, highPassed, rfl⟩ := of_halfCycle rising
  obtain ⟨_, _, lowBoard, lowPassed, rfl⟩ := of_halfCycle falling
  have housekept : board.Readable (passed + 2) :=
    readable_of_housekeep ((readable.halfCycle highPassed).halfCycle lowPassed) kept
  obtain ⟨stackPointer, -, rfl⟩ | ⟨-, final, after, finished, rfl⟩ := rest
  · exact housekept.mono (Nat.le_succ _)
  · exact readable_of_finishStep housekept finished

theorem Reached.clockAhead {n : Nat} (reached : Reached n machine) :
    machine.board.ClockAhead := by
  induction reached with
  | start core settings =>
      rw [Machine.start, board_holdReset]
      exact fun none => absurd none (lt_irrefl 0)
  | loadBios _ _ loaded ih =>
      obtain ⟨bios, -, same⟩ := bind_eq_ok.mp loaded
      cases same
      exact ih
  | loadCartridge _ loaded ih =>
      obtain ⟨cartridge, -, same⟩ := bind_eq_ok.mp loaded
      cases same
      exact ih
  | setTable _ _ ih => exact ih
  | setKeys keys _ ih =>
      rw [board_setKeys]
      exact ih
  | setRunning running _ ih => exact ih
  | pokeRegister _ poked ih =>
      obtain ⟨⟨write, board⟩, written, same⟩ := bind_eq_ok.mp poked
      cases same
      obtain ⟨registers, incidents, -, counted, rfl⟩ := Board.of_writeRegister written
      have sameReads := Board.reads_of_countWrite counted
      dsimp only [Board.ClockAhead]
      rw [Incidents.reads, sameReads.1, sameReads.2]
      exact ih
  | raise _ done ih =>
      obtain ⟨⟨raised, registers⟩, -, same⟩ := bind_eq_ok.mp done
      cases same
      exact ih
  | present _ shown ih =>
      obtain ⟨ram, screen, -, -, -, rfl⟩ := Board.of_present shown
      exact ih
  | takeRedraw _ ih => exact ih
  | step reached stepped ih =>
      rename_i machine _
      cases halted : machine.haltedAt with
      | some stackPointer =>
          rw [step_of_halted halted] at stepped
          cases stepped
          exact ih
      | none =>
          have readable := readable_of_step (ih.readable reached.intact) halted stepped
          exact fun _ => readable.counted
  | reset _ _ =>
      rw [Machine.reset, board_holdReset]
      exact fun none => absurd none (lt_irrefl 0)
  | exchangeCore core _ ih => exact ih
  | restore _ savedReached restored _ savedIh =>
      rw [eq_of_restore_snapshot savedReached.intact restored]
      exact savedIh

end Machine

/-- On every reachable board a read over the bus gives what an observer sees there, and
leaves its record and nothing else, unless the counter for it is full, which is a fault.
The boards of reachable machines are reachable and their counters never full. Addresses
with the same 21 lines cannot be told apart, neither on the bus nor by an observer. -/
theorem read_paths_agree :
    (∀ board : Board, board.Reachable → ∀ address codeBank,
      (board.CanCount address codeBank →
        ∃ report changed, board.fetch (.read address) codeBank = .ok (report, changed) ∧
          board.ReadAgrees address codeBank report changed) ∧
      (¬ board.CanCount address codeBank →
        board.fetch (.read address) codeBank = .error .overflow)) ∧
    (∀ (σ : Type) [Core σ] (machine : Machine σ), machine.Reachable →
      machine.board.Reachable ∧ ∀ address codeBank, machine.board.CanCount address codeBank) ∧
    (∀ (board : Board) (address other : UInt32),
      address.toNat % 2 ^ 21 = other.toNat % 2 ^ 21 →
        board.view address = board.view other ∧ ∀ codeBank,
          board.fetch (.read address) codeBank = board.fetch (.read other) codeBank) := by
  refine ⟨?_, ?_, ?_⟩
  · intro board reachable address codeBank
    exact ⟨reachable.readAgrees, reachable.sized_supplied.2.fetch_read_eq_error⟩
  · intro σ _ machine reachable
    obtain ⟨n, reached⟩ := reachable
    exact ⟨reached.board, reached.clockAhead.canCount⟩
  · intro board address other same
    obtain ⟨sameView, sameRead⟩ := board.same_of_lineOf_eq same
    refine ⟨sameView, fun codeBank => ?_⟩
    rw [sameRead]

end Handheld
