/-
# What a move can do to numbers

Some registers hold fewer bits than the words they are kept in, and no move takes
them out of their range. The counters of a board, on the other hand, grow as long
as the board is used. Their sum is the load of the board, and no move adds more
than nine to it, or to any one of them: a cycle in which everything about the core
is wrong gives that many complaints.

Whether a move succeeds is not a question of this module.
-/

import Handheld.Proofs.Board.Moves
import Handheld.Proofs.Refresh.Hunt

namespace Handheld

open Checked

/-- The numbers behind the registers have no more bits than the hardware keeps. -/
structure RegisterBank.InRange (bank : RegisterBank) : Prop where
  seconds : bank.seconds.count.toNat < 2 ^ 24
  mode : bank.refresh.mode.toNat ≤ 0x3F
  map : bank.refresh.map.toNat < 2 ^ 24
  contrast : bank.lcd.contrast.toNat ≤ 0x3F

theorem toNat_and_le_right (byte mask : UInt8) : (byte &&& mask).toNat ≤ mask.toNat := by
  rw [UInt8.toNat_and]
  exact Nat.and_le_right

/-- The count that a cycle brings, before the reset bit has its say. -/
def SecondsCounter.counted (counter : SecondsCounter) (onInterval : Bool) : Checked UInt32 :=
  if counter.isEnabled && onInterval then (add32 counter.count 1).map (· &&& 0xFFFFFF)
  else .ok counter.count

theorem SecondsCounter.tick_eq (counter : SecondsCounter) (onInterval : Bool) :
    counter.tick onInterval =
      (counter.counted onInterval).map fun count =>
        { counter with count := if counter.isHeld then 0 else count } := by
  unfold tick counted
  cases counter.isEnabled && onInterval with
  | true => cases add32 counter.count 1 <;> rfl
  | false => rfl

/-- The count is cut to 24 bits whenever it moves. -/
theorem SecondsCounter.count_of_tick {counter changed : SecondsCounter} {onInterval : Bool}
    (ticked : counter.tick onInterval = .ok changed) :
    changed.count = counter.count ∨ changed.count.toNat < 2 ^ 24 := by
  rw [tick_eq] at ticked
  obtain ⟨count, moved, rfl⟩ := of_map_eq_ok ticked
  dsimp only
  split
  · exact .inr (by decide)
  unfold counted at moved
  split at moved
  · obtain ⟨next, -, rfl⟩ := of_map_eq_ok moved
    right
    rw [UInt32.toNat_and]
    exact Nat.lt_of_le_of_lt Nat.and_le_right (by decide)
  · cases moved
    exact .inl rfl

namespace RefreshController

/-- A byte goes to one of three places, and the other two keep theirs. -/
theorem map_setMapByte_lt {controller : RefreshController} (small : controller.map.toNat < 2 ^ 24)
    (index : Nat) (data : UInt8) : (controller.setMapByte index data).map.toNat < 2 ^ 24 := by
  have place : min index 2 = 0 ∨ min index 2 = 1 ∨ min index 2 = 2 := by omega
  have narrow : (data.toUInt32 <<< UInt32.ofNat (8 * min index 2)).toNat < 2 ^ 24 := by
    have byte := data.toNat_lt
    rw [UInt32.toNat_shiftLeft, Nat.shiftLeft_eq, UInt8.toNat_toUInt32]
    rcases place with place | place | place <;>
      · rw [place]
        simp only [Nat.mul_zero, Nat.mul_one, Nat.reduceMul, UInt32.reduceOfNat, UInt32.reduceToNat,
          Nat.reduceMod, Nat.reducePow]
        omega
  rw [setMapByte, UInt32.toNat_or, UInt32.toNat_and]
  exact Nat.or_lt_two_pow (Nat.lt_of_le_of_lt Nat.and_le_left small) narrow

/-- Ticks move neither the mode nor the tile base. -/
theorem tick_keeps (controller : RefreshController) :
    controller.tick.2.mode = controller.mode ∧ controller.tick.2.map = controller.map := by
  rcases controller.tick_cases with ⟨-, -, ticked⟩ | ⟨-, -, -, ticked⟩ | ⟨-, -, ticked⟩ |
      ⟨-, -, ticked⟩
  all_goals
    rw [ticked]
    exact ⟨rfl, rfl⟩

end RefreshController

theorem Lcd.Controller.contrast_command_le {controller : Lcd.Controller}
    (small : controller.contrast.toNat ≤ 0x3F) (data : UInt8) :
    (controller.command data).2.contrast.toNat ≤ 0x3F := by
  unfold Lcd.Controller.command
  split
  · exact toNat_and_le_right data 0x3F
  · exact small

namespace RegisterBank

variable {bank changed : RegisterBank}

theorem inRange_initial : initial.InRange := by
  constructor <;> decide

/-- Each device keeps its own range, whatever is written. -/
theorem InRange.applyWrite (ranges : bank.InRange) {offset data : UInt8} {report : RegisterWrite}
    (applied : bank.applyWrite offset data = .ok (report, changed)) : changed.InRange := by
  unfold RegisterBank.applyWrite at applied
  cases role : Register.role offset with
  | interruptLatch =>
      simp only [role] at applied
      obtain ⟨latched, -, same⟩ := bind_eq_ok.mp applied
      cases same
      exact ranges
  | refreshMode =>
      simp only [role] at applied
      cases applied
      exact { ranges with mode := toNat_and_le_right data 0x3F }
  | refreshRate =>
      simp only [role] at applied
      cases applied
      obtain ⟨mode, -, map⟩ := bank.refresh.writeRate_keeps data
      exact
        { ranges with
          mode := mode ▸ ranges.mode
          map := map ▸ ranges.map }
  | mapByte index =>
      simp only [role] at applied
      cases applied
      exact { ranges with map := RefreshController.map_setMapByte_lt ranges.map index data }
  | lcdControl =>
      simp only [role] at applied
      cases applied
      exact { ranges with contrast := Lcd.Controller.contrast_command_le ranges.contrast data }
  | secondsControl | secondsByte index | keyPad | cartridgeBus | plain | unknown | absent =>
      simp only [role] at applied
      cases applied
      exact { ranges with }

theorem InRange.write (ranges : bank.InRange) {offset data : UInt8} {report : RegisterWrite}
    (written : bank.write offset data = .ok (report, changed)) : changed.InRange := by
  obtain ⟨applied, cells, first, -, rfl⟩ := of_write written
  exact { ranges.applyWrite first with }

theorem InRange.tick (ranges : bank.InRange) {onSeconds onRefresh : Bool}
    {tick : Option RefreshTick} (done : bank.tick onSeconds onRefresh = .ok (tick, changed)) :
    changed.InRange := by
  obtain ⟨seconds, counted, rfl, -⟩ := of_tick done
  have count : seconds.count.toNat < 2 ^ 24 := by
    rcases SecondsCounter.count_of_tick counted with same | cut
    · exact same ▸ ranges.seconds
    · exact cut
  obtain ⟨mode, map⟩ := bank.refresh.tick_keeps
  cases onRefresh with
  | false => exact { ranges with seconds := count }
  | true =>
      exact
        { seconds := count
          mode := mode ▸ ranges.mode
          map := map ▸ ranges.map
          contrast := ranges.contrast }

/-- Writes start and stop the seconds counter, but leave its count alone. -/
theorem count_of_write {offset data : UInt8} {report : RegisterWrite}
    (written : bank.write offset data = .ok (report, changed)) :
    changed.seconds.count = bank.seconds.count := by
  obtain ⟨applied, cells, first, -, rfl⟩ := of_write written
  unfold applyWrite at first
  split at first
  case h_5 =>
    obtain ⟨latched, -, same⟩ := bind_eq_ok.mp first
    cases same
    rfl
  all_goals
    cases first
    rfl

end RegisterBank

/-! ## Counters -/

/-- All incidents together. -/
def Incidents.total (incidents : Incidents) : Nat :=
  incidents.illegalWrites.toNat + incidents.droppedWrites.toNat +
    incidents.unknownWrites.toNat + incidents.timerReads.toNat + incidents.bankHits.toNat +
    incidents.lcdHazards.toNat

theorem of_add64_one {count sum : UInt64} (added : add64 count 1 = .ok sum) :
    sum.toNat = count.toNat + 1 :=
  (of_add64_eq_ok added).2

/-- No kind of incident has been counted more than once. -/
structure Incidents.CountedOnce (before after : Incidents) : Prop where
  illegalWrites : after.illegalWrites.toNat ≤ before.illegalWrites.toNat + 1
  droppedWrites : after.droppedWrites.toNat ≤ before.droppedWrites.toNat + 1
  unknownWrites : after.unknownWrites.toNat ≤ before.unknownWrites.toNat + 1
  timerReads : after.timerReads.toNat ≤ before.timerReads.toNat + 1
  bankHits : after.bankHits.toNat ≤ before.bankHits.toNat + 1
  lcdHazards : after.lcdHazards.toNat ≤ before.lcdHazards.toNat + 1

namespace Incidents.CountedOnce

theorem refl (incidents : Incidents) : CountedOnce incidents incidents := by
  constructor <;> exact Nat.le_succ _

theorem total_le {before after : Incidents} (once : CountedOnce before after) :
    after.total ≤ before.total + 6 := by
  obtain ⟨illegalWrites, droppedWrites, unknownWrites, timerReads, bankHits, lcdHazards⟩ := once
  unfold Incidents.total
  omega

end Incidents.CountedOnce

/-- A core that does everything wrong at once gives nine complaints. -/
theorem Complaint.length_ofFrame_le (pins : Pins) (probes : Probes) (stackLimit : UInt16) :
    (ofFrame pins probes stackLimit).length ≤ 9 := by
  have single (condition : Prop) [Decidable condition] (complaint : Complaint) :
      (if condition then [complaint] else []).length ≤ 1 := by
    split
    · exact le_rfl
    · exact Nat.zero_le 1
  unfold ofFrame
  dsimp only
  split
  · exact (single _ _).trans (by decide)
  · simp only [List.length_append]
    exact Nat.add_le_add (Nat.add_le_add (Nat.add_le_add (Nat.add_le_add (Nat.add_le_add
      (Nat.add_le_add (Nat.add_le_add (Nat.add_le_add (single _ _) (single _ _)) (single _ _))
        (single _ _)) (single _ _)) (single _ _)) (single _ _)) (single _ _)) (single _ _)

namespace Board

/-- The sum of the counters that only grow while a board is used. -/
def load (board : Board) : Nat :=
  board.incidents.total + board.audit.complaints.toNat + board.screen.frames.toNat +
    board.ticks.toNat

variable {board changed : Board} {incidents counted : Incidents}

theorem countedOnce_of_countTimerRead {offset : UInt8}
    (done : countTimerRead incidents offset = .ok counted) : incidents.CountedOnce counted := by
  unfold countTimerRead at done
  split at done
  · obtain ⟨sum, added, same⟩ := bind_eq_ok.mp done
    cases same
    exact { Incidents.CountedOnce.refl incidents with timerReads := (of_add64_one added).le }
  · cases done
    exact .refl _

theorem countedOnce_of_countBankHit {address : UInt32} {codeBank : UInt8}
    (done : countBankHit incidents address codeBank = .ok counted) :
    incidents.CountedOnce counted := by
  unfold countBankHit at done
  split at done
  · obtain ⟨sum, added, same⟩ := bind_eq_ok.mp done
    cases same
    exact { Incidents.CountedOnce.refl incidents with bankHits := (of_add64_one added).le }
  · cases done
    exact .refl _

/-- Count what became of a register write. -/
def countOutcome (incidents : Incidents) : WriteClass → Checked Incidents
  | .unknown => (add64 incidents.unknownWrites 1).map fun unknownWrites =>
    { incidents with unknownWrites }
  | .readOnly | .dropped => (add64 incidents.droppedWrites 1).map fun droppedWrites =>
    { incidents with droppedWrites }
  | .stored | .acknowledged | .rematched => .ok incidents

/-- Count an LCD command that is a hazard. -/
def countHazard (incidents : Incidents) (command : Option Lcd.Command) : Checked Incidents :=
  if command.any Lcd.Command.isHazard then
    (add64 incidents.lcdHazards 1).map fun lcdHazards => { incidents with lcdHazards }
  else .ok incidents

theorem countWrite_eq (incidents : Incidents) (write : RegisterWrite) :
    countWrite incidents write =
      countOutcome incidents write.outcome >>= (countHazard · write.lcd) := by
  have hazard (counted : Incidents) : countHazard counted write.lcd =
      if write.lcd.any Lcd.Command.isHazard then do
        let lcdHazards ← add64 counted.lcdHazards 1
        .ok { counted with lcdHazards }
      else .ok counted := by
    unfold countHazard
    split
    · cases add64 counted.lcdHazards 1 <;> rfl
    · rfl
  simp only [hazard]
  unfold countWrite countOutcome
  cases write.outcome with
  | unknown => cases add64 incidents.unknownWrites 1 <;> rfl
  | readOnly | dropped => cases add64 incidents.droppedWrites 1 <;> rfl
  | stored | acknowledged | rematched => rfl

/-- Register writes are counted without regard to what has been read. -/
theorem countWrite_with (incidents : Incidents) (write : RegisterWrite)
    (timerReads bankHits : UInt64) :
    countWrite { incidents with timerReads, bankHits } write =
      (countWrite incidents write).map fun counted => { counted with timerReads, bankHits } := by
  have outcome : countOutcome { incidents with timerReads, bankHits } write.outcome =
      (countOutcome incidents write.outcome).map fun counted =>
        { counted with timerReads, bankHits } := by
    unfold countOutcome
    cases write.outcome with
    | unknown => cases add64 incidents.unknownWrites 1 <;> rfl
    | readOnly | dropped => cases add64 incidents.droppedWrites 1 <;> rfl
    | stored | acknowledged | rematched => rfl
  rw [countWrite_eq, countWrite_eq, outcome, chain_map, map_chain]
  congr
  funext counted
  unfold countHazard
  split
  · cases add64 counted.lcdHazards 1 <;> rfl
  · rfl

theorem reads_of_countWrite {write : RegisterWrite}
    (done : countWrite incidents write = .ok counted) :
    counted.timerReads = incidents.timerReads ∧ counted.bankHits = incidents.bankHits := by
  have again := countWrite_with incidents write incidents.timerReads incidents.bankHits
  rw [done] at again
  have same := Except.ok.inj again
  constructor
  · rw [same]
  · rw [same]

/-- What became of a write is not counted among the hazards. -/
theorem countedOnce_of_countOutcome {outcome : WriteClass}
    (done : countOutcome incidents outcome = .ok counted) :
    incidents.CountedOnce counted ∧ counted.lcdHazards = incidents.lcdHazards := by
  have refl := Incidents.CountedOnce.refl incidents
  cases outcome with
  | unknown =>
      obtain ⟨sum, added, rfl⟩ := of_map_eq_ok done
      exact ⟨{ refl with unknownWrites := (of_add64_one added).le }, rfl⟩
  | readOnly | dropped =>
      obtain ⟨sum, added, rfl⟩ := of_map_eq_ok done
      exact ⟨{ refl with droppedWrites := (of_add64_one added).le }, rfl⟩
  | stored | acknowledged | rematched =>
      cases done
      exact ⟨refl, rfl⟩

/-- A write counts once for what became of it, and once for a hazard. -/
theorem countedOnce_of_countWrite {write : RegisterWrite}
    (done : countWrite incidents write = .ok counted) : incidents.CountedOnce counted := by
  rw [countWrite_eq] at done
  obtain ⟨middle, first, second⟩ := bind_eq_ok.mp done
  obtain ⟨once, sameHazards⟩ := countedOnce_of_countOutcome first
  unfold countHazard at second
  split at second
  · obtain ⟨sum, added, rfl⟩ := of_map_eq_ok second
    rw [sameHazards] at added
    exact { once with lcdHazards := (of_add64_one added).le }
  · cases second
    exact once

/-! ## The load of a move -/

/-- Every frame shown is counted. -/
theorem frames_of_present {memory : Option (Array UInt8)} {contrast : Option UInt8}
    {presentation : Presentation}
    (shown : board.present memory contrast = .ok (presentation, changed)) :
    changed.screen.frames.toNat = board.screen.frames.toNat + 1 := by
  have counted {planar : Array UInt8} {level : UInt8} {screen : Screen}
      (presented : board.screen.present planar level = .ok screen) :
      screen.frames.toNat = board.screen.frames.toNat + 1 := by
    obtain ⟨pixels, -, rest⟩ := bind_eq_ok.mp presented
    obtain ⟨frames, added, same⟩ := bind_eq_ok.mp rest
    cases same
    exact of_add64_one added
  cases memory with
  | some planar =>
      obtain ⟨-, ⟨⟩, rest⟩ := bind_eq_ok.mp shown
      obtain ⟨screen, presented, same⟩ := bind_eq_ok.mp rest
      cases same
      exact counted presented
  | none =>
      obtain ⟨⟨planar, ram⟩, -, rest⟩ := bind_eq_ok.mp shown
      obtain ⟨screen, presented, same⟩ := bind_eq_ok.mp rest
      cases same
      exact counted presented

/-- A bus read counts at most one incident. -/
theorem countedOnce_of_fetch {bus : Transaction} {codeBank : UInt8} {report : Fetch}
    (fetched : board.fetch bus codeBank = .ok (report, changed)) :
    board.incidents.CountedOnce changed.incidents := by
  unfold fetch at fetched
  cases region : (board.locate bus.address).region with
  | bios =>
      simp only [region] at fetched
      obtain ⟨⟨data, bios⟩, -, same⟩ := bind_eq_ok.mp fetched
      cases same
      exact .refl _
  | ram =>
      simp only [region] at fetched
      obtain ⟨data, -, same⟩ := bind_eq_ok.mp fetched
      cases same
      exact .refl _
  | registers =>
      simp only [region] at fetched
      obtain ⟨incidents, counted, rest⟩ := bind_eq_ok.mp fetched
      obtain ⟨data, -, same⟩ := bind_eq_ok.mp rest
      cases same
      exact countedOnce_of_countTimerRead counted
  | cartridge =>
      simp only [region] at fetched
      obtain ⟨incidents, counted, rest⟩ := bind_eq_ok.mp fetched
      obtain ⟨⟨data, cartridge⟩, -, same⟩ := bind_eq_ok.mp rest
      cases same
      exact countedOnce_of_countBankHit counted

/-- The counters of a board that only grow while it is used. -/
inductive Counter
  | illegalWrites
  | droppedWrites
  | unknownWrites
  | timerReads
  | bankHits
  | lcdHazards
  | complaints
  | frames
  | ticks
  deriving DecidableEq, Repr

/-- How far a counter has come. -/
def count (board : Board) : Counter → UInt64
  | .illegalWrites => board.incidents.illegalWrites
  | .droppedWrites => board.incidents.droppedWrites
  | .unknownWrites => board.incidents.unknownWrites
  | .timerReads => board.incidents.timerReads
  | .bankHits => board.incidents.bankHits
  | .lcdHazards => board.incidents.lcdHazards
  | .complaints => board.audit.complaints
  | .frames => board.screen.frames
  | .ticks => board.ticks

theorem count_le_load (board : Board) (counter : Counter) :
    (board.count counter).toNat ≤ board.load := by
  cases counter
  all_goals
    simp only [count, load, Incidents.total]
    omega

/-- The board has its registers in range and no other period, its count of seconds
has moved to 24 bits if at all, and its load has grown by at most nine, as has each
counter. -/
structure WithinLimits (before after : Board) : Prop where
  ranges : before.registers.InRange → after.registers.InRange
  period : after.oscillator.period = before.oscillator.period
  seconds : after.registers.seconds.count = before.registers.seconds.count ∨
    after.registers.seconds.count.toNat < 2 ^ 24
  load : after.load ≤ before.load + 9
  counts : ∀ counter, (after.count counter).toNat ≤ (before.count counter).toNat + 9

/-- What leaves frames, clock and complaints alone counts each incident once at most. -/
theorem withinLimits_of_countedOnce {before after : Board}
    (ranges : before.registers.InRange → after.registers.InRange)
    (period : after.oscillator.period = before.oscillator.period)
    (seconds : after.registers.seconds.count = before.registers.seconds.count ∨
      after.registers.seconds.count.toNat < 2 ^ 24)
    (once : before.incidents.CountedOnce after.incidents)
    (complaints : after.audit.complaints = before.audit.complaints)
    (frames : after.screen.frames = before.screen.frames) (ticks : after.ticks = before.ticks) :
    before.WithinLimits after where
  ranges := ranges
  period := period
  seconds := seconds
  load := by
    have total := once.total_le
    simp only [load, complaints, frames, ticks]
    omega
  counts counter := by
    have wide {n : Nat} : n + 1 ≤ n + 9 := Nat.add_le_add_left (by decide) n
    have still {old new : UInt64} (same : new = old) : new.toNat ≤ old.toNat + 9 :=
      same ▸ Nat.le_add_right _ _
    cases counter with
    | illegalWrites => exact once.illegalWrites.trans wide
    | droppedWrites => exact once.droppedWrites.trans wide
    | unknownWrites => exact once.unknownWrites.trans wide
    | timerReads => exact once.timerReads.trans wide
    | bankHits => exact once.bankHits.trans wide
    | lcdHazards => exact once.lcdHazards.trans wide
    | complaints => exact still complaints
    | frames => exact still frames
    | ticks => exact still ticks

theorem withinLimits_of_writeRegister {offset data : UInt8} {report : RegisterWrite}
    (written : board.writeRegister offset data = .ok (report, changed)) :
    board.WithinLimits changed := by
  obtain ⟨registers, incidents, done, counted, rfl⟩ := of_writeRegister written
  exact withinLimits_of_countedOnce (fun ranges => ranges.write done) rfl
    (.inl (RegisterBank.count_of_write done)) (countedOnce_of_countWrite counted) rfl rfl rfl

/-- Images refuse a write and count that; working memory counts nothing. -/
theorem withinLimits_of_store {bus : Transaction} {report : Store}
    (stored : board.store bus = .ok (report, changed)) : board.WithinLimits changed := by
  unfold store at stored
  cases region : (board.locate bus.address).region with
  | bios | cartridge =>
      simp only [region] at stored
      obtain ⟨illegalWrites, added, same⟩ := bind_eq_ok.mp stored
      cases same
      exact withinLimits_of_countedOnce id rfl (.inl rfl)
        { Incidents.CountedOnce.refl board.incidents with
          illegalWrites := (of_add64_one added).le } rfl rfl rfl
  | ram =>
      simp only [region] at stored
      obtain ⟨ram, -, same⟩ := bind_eq_ok.mp stored
      cases same
      exact withinLimits_of_countedOnce id rfl (.inl rfl) (.refl _) rfl rfl rfl
  | registers =>
      simp only [region] at stored
      obtain ⟨⟨write, after⟩, done, same⟩ := bind_eq_ok.mp stored
      have written := withinLimits_of_writeRegister done
      cases same
      exact written

/-- No move leaves the limits. -/
theorem Move.withinLimits {before after : Board} (move : Move before after) :
    before.WithinLimits after := by
  cases move with
  | halfCycle passed =>
      obtain ⟨oscillator, due, ticks, rfl⟩ := of_halfCycle passed
      refine ⟨id, Oscillator.period_of_due due, .inl rfl, ?_, fun counter => ?_⟩
      · simp only [load]
        omega
      · cases counter with
        | ticks =>
            simp only [count]
            omega
        | _ => exact Nat.le_add_right _ _
  | latchEdges probes latched =>
      obtain ⟨cells, -, rfl⟩ := of_latchEdges latched
      exact withinLimits_of_countedOnce (fun ranges => { ranges with }) rfl (.inl rfl) (.refl _)
        rfl rfl rfl
  | tickRegisters settings ticked =>
      obtain ⟨registers, done, rfl⟩ := of_tickRegisters ticked
      obtain ⟨seconds, counted, same, -⟩ := RegisterBank.of_tick done
      refine withinLimits_of_countedOnce (fun ranges => ranges.tick done) rfl ?_ (.refl _)
        rfl rfl rfl
      rw [same]
      exact SecondsCounter.count_of_tick counted
  | present memory contrast shown =>
      have frames := frames_of_present shown
      obtain ⟨ram, screen, -, -, -, rfl⟩ := of_present shown
      dsimp only at frames
      refine ⟨id, rfl, .inl rfl, ?_, fun counter => ?_⟩
      · simp only [load]
        omega
      · cases counter with
        | frames =>
            simp only [count]
            omega
        | _ => exact Nat.le_add_right _ _
  | collectComplaints pins probes collected =>
      obtain ⟨complaints, added, same⟩ := bind_eq_ok.mp collected
      have few := Complaint.length_ofFrame_le pins probes before.audit.stackLimit
      have counted := (of_add64_eq_ok added).2
      cases same
      rw [UInt64.toNat_ofNat_of_lt' (few.trans_lt (by decide))] at counted
      refine ⟨id, rfl, .inl rfl, ?_, fun counter => ?_⟩
      · simp only [load]
        omega
      · cases counter with
        | complaints =>
            simp only [count]
            omega
        | _ => exact Nat.le_add_right _ _
  | observe pins probes timestamp observed =>
      obtain ⟨inInterrupt, executed, discrepancies, -, rfl⟩ := Audit.of_observe observed
      exact withinLimits_of_countedOnce id rfl (.inl rfl) (.refl _) rfl rfl rfl
  | enterInterrupt pins timestamp guardTime =>
      rw [Audit.of_enterInterrupt]
      exact withinLimits_of_countedOnce id rfl (.inl rfl) (.refl _) rfl rfl rfl
  | countCycle pins probes =>
      exact withinLimits_of_countedOnce id rfl (.inl rfl) (.refl _) rfl rfl rfl
  | fetch bus codeBank fetched =>
      have once := countedOnce_of_fetch fetched
      obtain ⟨bios, cartridge, incidents, -, -, rfl⟩ := of_fetch fetched
      exact withinLimits_of_countedOnce id rfl (.inl rfl) once rfl rfl rfl
  | store bus stored => exact withinLimits_of_store stored
  | writeRegister offset data written => exact withinLimits_of_writeRegister written
  | raise offset mask done =>
      obtain ⟨cells, -, rfl⟩ := RegisterBank.of_raise done
      exact withinLimits_of_countedOnce (fun ranges => { ranges with }) rfl (.inl rfl) (.refl _)
        rfl rfl rfl
  | setKeys keys =>
      exact withinLimits_of_countedOnce (fun ranges => { ranges with }) rfl (.inl rfl) (.refl _)
        rfl rfl rfl
  | takeRedraw => exact withinLimits_of_countedOnce id rfl (.inl rfl) (.refl _) rfl rfl rfl

end Board

end Handheld
