/-
# Scripts against a flat memory

A scripted core that only idles, reads and writes sees a flat memory through the
whole machine. This module follows such a script from power-on: reset is held for
its time, every further step takes one item of the script, and the bytes served
are those of a memory that knows nothing but the items before.

The items leave the registers alone, and do not read the one register that moves
by itself. Under that condition a step does nothing to the memory but what its
item says, whatever the settings are.
-/

import Handheld.Core.Scripted
import Handheld.Proofs.Board.Memory
import Handheld.Proofs.Machine.Steps

namespace Handheld

open Checked

/-- What a core wants from the bus in one cycle. -/
inductive BusItem
  | idle
  | read (address : UInt32)
  | write (address : UInt32) (data : UInt8)
  deriving DecidableEq, Repr

namespace BusItem

/-- The frame that a scripted core shows for an item. -/
def frame : BusItem → Frame
  | .idle => {}
  | .read address => { pins := { address, busStatus := .memRead } }
  | .write address data =>
    { pins := { address, busStatus := .memWrite, write := true, dataOut := data } }

/-- The script of a row of items. -/
def script (items : List BusItem) : List Frame :=
  items.flatMap fun
    | .idle => ScriptedCore.idle 1
    | .read address => ScriptedCore.read address
    | .write address data => ScriptedCore.write address data

/-- The item writes no register, and does not read the refresh rate. -/
def Plain : BusItem → Prop
  | .idle => True
  | .read address => lineOf address ≠ 0x2081
  | .write address _ => ¬ (0x2000 ≤ lineOf address ∧ lineOf address < 0x2100)

instance : DecidablePred Plain
  | .idle => inferInstanceAs (Decidable True)
  | .read _ => inferInstanceAs (Decidable (_ ≠ _))
  | .write _ _ => inferInstanceAs (Decidable (¬ _))

/-- The byte that the latest of some items, the latest first, has left at an
offset of working memory. -/
def latestWrite : List BusItem → Nat → UInt8
  | [], _ => 0
  | .write address data :: earlier, offset =>
    if (0x1000 ≤ lineOf address ∧ lineOf address < 0x2000) ∧ lineOf address % 0x1000 = offset
    then data else latestWrite earlier offset
  | _ :: earlier, offset => latestWrite earlier offset

/-- The memory that an item finds after earlier ones, the latest first. -/
def memoryAfter (bios cartridge : Array UInt8) (earlier : List BusItem) : FlatMemory :=
  ⟨bios, cartridge, latestWrite earlier⟩

/-- What an item is served: a read has its byte, and nothing else has one. -/
def answer (memory : FlatMemory) : BusItem → List (UInt32 × UInt8)
  | .read address => [(address, memory.byteAt address)]
  | _ => []

/-- What the items of a script are served in turn, after earlier ones. -/
def answers (bios cartridge : Array UInt8) :
    List BusItem → List BusItem → List (UInt32 × UInt8)
  | _, [] => []
  | earlier, item :: rest =>
    item.answer (memoryAfter bios cartridge earlier) ++
      answers bios cartridge (item :: earlier) rest

/-- What an item does to a memory. -/
def apply (memory : FlatMemory) : BusItem → FlatMemory
  | .write address data => memory.write address data
  | _ => memory

theorem script_cons (item : BusItem) (rest : List BusItem) :
    script (item :: rest) = item.frame :: script rest := by
  cases item <;> rfl

/-- The latest write is the one that a memory keeps. -/
theorem memoryAfter_cons (bios cartridge : Array UInt8) (item : BusItem)
    (earlier : List BusItem) :
    memoryAfter bios cartridge (item :: earlier) =
      item.apply (memoryAfter bios cartridge earlier) := by
  cases item with
  | idle => rfl
  | read address => rfl
  | write address data =>
      simp only [memoryAfter, apply, FlatMemory.write]
      split
      · rename_i inRam
        congr 1
        funext offset
        rw [latestWrite, Function.update_apply]
        simp only [inRam, and_self, true_and, eq_comm]
      · rename_i outside
        congr 1
        funext offset
        rw [latestWrite, if_neg fun matched => outside matched.1]

end BusItem

namespace ScriptedCore

/-- The core after the clock has risen and fallen. -/
def cycled (core : ScriptedCore) : ScriptedCore :=
  setClock false (setClock true core)

variable {core : ScriptedCore}

/-- In reset a cycle passes without a frame. -/
theorem cycled_of_reset (low : core.clock = false) (held : core.reset = true) :
    core.cycled = core := by
  cases core
  cases low
  cases held
  rfl

/-- Outside reset a cycle takes the next frame of the script. -/
theorem cycled_of_script {frame : Frame} {rest : List Frame} (low : core.clock = false)
    (released : core.reset = false) (next : core.script = frame :: rest) :
    core.cycled = { core with script := rest, current := frame } := by
  cases core
  cases low
  cases released
  cases next
  rfl

end ScriptedCore

namespace Machine

/-- The machine after some time, in which the core may have seen edges of the
real-time clock. -/
def passing (machine : Machine ScriptedCore) (core : ScriptedCore) (realTimeClock : Bool)
    (realTimeEdges : UInt64) (oscillator : Oscillator) (ticks : UInt64) : Machine ScriptedCore :=
  { machine with
    core := { core with realTimeClock, realTimeEdges }
    board := { machine.board with oscillator, ticks } }

/-- Half a cycle never fails while the timestamp has room. -/
theorem halfCycle_eq_ok (machine : Machine ScriptedCore) (level : Bool)
    (room : machine.board.ticks.toNat + machine.board.oscillator.period.toNat + 1 < UInt64.size) :
    ∃ realTimeClock realTimeEdges oscillator,
      oscillator.period = machine.board.oscillator.period ∧
      machine.halfCycle level = .ok (machine.passing (machine.core.setClock level) realTimeClock
        realTimeEdges oscillator (machine.board.ticks + 1)) := by
  have tick : add64 machine.board.ticks 1 = .ok (machine.board.ticks + 1) :=
    add64_eq_ok (by
      show machine.board.ticks.toNat + 1 < _
      omega)
  have next : add64 machine.board.ticks machine.board.oscillator.period =
      .ok (machine.board.ticks + machine.board.oscillator.period) := add64_eq_ok (by omega)
  by_cases early : machine.board.ticks < machine.board.oscillator.next
  · refine ⟨(machine.core.setClock level).realTimeClock,
      (machine.core.setClock level).realTimeEdges, machine.board.oscillator, rfl, ?_⟩
    rw [halfCycle, Board.halfCycle, Oscillator.due, if_pos early, ok_bind, tick]
    rfl
  · let toggled := (machine.core.setClock level).setRealTimeClock !machine.board.oscillator.level
    refine ⟨toggled.realTimeClock, toggled.realTimeEdges,
      { machine.board.oscillator with
        next := machine.board.ticks + machine.board.oscillator.period
        level := !machine.board.oscillator.level }, rfl, ?_⟩
    rw [halfCycle, Board.halfCycle, Oscillator.due, if_neg early, next, ok_bind, ok_bind, tick]
    rfl

/-- A whole cycle of the clock. -/
theorem cycle_eq_ok (machine : Machine ScriptedCore)
    (room : machine.board.ticks.toNat + machine.board.oscillator.period.toNat + 2 < UInt64.size) :
    ∃ high realTimeClock realTimeEdges oscillator,
      oscillator.period = machine.board.oscillator.period ∧
      machine.halfCycle true = .ok high ∧
      high.halfCycle false = .ok (machine.passing machine.core.cycled realTimeClock
        realTimeEdges oscillator (machine.board.ticks + 1 + 1)) := by
  obtain ⟨level, edges, first, firstPeriod, rising⟩ := machine.halfCycle_eq_ok true (by omega)
  have passed := toNat_add_one_le machine.board.ticks
  obtain ⟨lowLevel, lowEdges, second, period, falling⟩ :=
    (machine.passing (machine.core.setClock true) level edges first
      (machine.board.ticks + 1)).halfCycle_eq_ok false (by
        show (machine.board.ticks + 1).toNat + first.period.toNat + 1 < _
        rw [firstPeriod]
        omega)
  exact ⟨_, lowLevel, lowEdges, second, period.trans firstPeriod, rising, falling⟩

variable {memory : FlatMemory} {item : BusItem}

/-- The frame of an item gives no cause for complaint. -/
theorem collectComplaints_eq_ok (audit : Audit) (item : BusItem) :
    audit.collectComplaints item.frame.pins item.frame.probes = .ok ([], audit) := by
  have probes : item.frame.probes = {} := by cases item <;> rfl
  have loading : item.frame.pins.pl = false := by cases item <;> rfl
  have quiet : Complaint.ofFrame item.frame.pins item.frame.probes audit.stackLimit = [] := by
    rw [Complaint.ofFrame, loading, probes]
    rfl
  have uncounted : add64 audit.complaints (UInt64.ofNat 0) = .ok audit.complaints := by
    rw [add64_eq_ok (by simpa using audit.complaints.toNat_lt)]
    simp
  rw [Audit.collectComplaints, quiet]
  dsimp only [List.length_nil]
  rw [uncounted, ok_bind]

/-- Housekeeping for the frame of an item finds nothing to report, and does
nothing that the bus could show. -/
theorem housekeep_eq_ok (core : ScriptedCore) (settings : Settings) (item : BusItem)
    {board : Board} (shows : board.Shows memory) :
    ∃ report kept, housekeep core settings item.frame board = .ok (report, kept) ∧
      report.sampled = item.frame ∧ report.timestamp = board.ticks ∧
      overflowOf report.complaints = none ∧ kept.Shows memory ∧ kept.ticks = board.ticks ∧
      kept.oscillator = board.oscillator ∧ kept.incidents = board.incidents := by
  have latched : board.latchEdges item.frame.probes =
      .ok (⟨false, false⟩, { board with renderDone := ⟨false⟩, copyComplete := ⟨false⟩ }) := by
    cases item <;> rfl
  obtain ⟨refresh, registers, ticked, noFrame, untouched⟩ := shows.registers.tick
    (onSecondsInterval board.ticks settings.secondsTickHalfCycles)
    (onRefreshInterval board.ticks settings.refreshTickCycles)
  have kept : housekeep core settings item.frame board = .ok
      ({ timestamp := board.ticks, sampled := item.frame, edges := ⟨false, false⟩
         rendered := none, refresh, rate := registers.refresh.rate, refreshed := none
         complaints := [] },
       { board with registers, renderDone := ⟨false⟩, copyComplete := ⟨false⟩ }) := by
    simp only [housekeep, latched, ok_bind, Bool.false_and, capture, Bool.false_eq_true, if_false,
      Board.tickRegisters, ticked, noFrame, decide_false, collectComplaints_eq_ok]
  exact ⟨_, _, kept, rfl, rfl, rfl, { shows with registers := untouched }, rfl, rfl, rfl⟩

/-- The transaction of an item is served from the memory, and leaves the memory
that the item makes of it. -/
theorem transfer_eq_ok (machine : Machine ScriptedCore) (shows : machine.board.Shows memory)
    (plain : item.Plain) (shown : machine.core.current = item.frame)
    (illegalWrites : machine.board.incidents.illegalWrites.toNat + 1 < UInt64.size)
    (timerReads : machine.board.incidents.timerReads.toNat + 1 < UInt64.size) :
    ∃ report board bus,
      machine.transfer item.frame = .ok (report,
        { machine with
          core := { machine.core with served := item.answer memory ++ machine.core.served }
          board, bus }) ∧
      board.Shows (item.apply memory) ∧ machine.board.Served board := by
  cases item with
  | idle => exact ⟨_, _, _, rfl, shows, Board.served_self _⟩
  | read address =>
      obtain ⟨fetch, board, fetched, data, after, served⟩ := shows.fetch timerReads plain
      have moved : machine.transfer (BusItem.read address).frame = .ok
          (.read ((Transaction.read address).withData fetch.data) fetch
            (Core.dataNotices fetch.data machine.core),
           { machine with
             core := machine.core.setDataIn fetch.data
             board
             bus := (Transaction.read address).withData fetch.data }) := by
        unfold transfer
        simp only [BusItem.frame, Bool.false_eq_true, if_false]
        rw [fetched, ok_bind]
        rfl
      have latched : machine.core.current.pins.address = address :=
        congrArg (·.pins.address) shown
      rw [ScriptedCore.setDataIn, latched, data] at moved
      exact ⟨_, board, _, moved, after, served⟩
  | write address data =>
      obtain ⟨store, board, stored, after, served⟩ := shows.store illegalWrites plain data
      have moved : machine.transfer (BusItem.write address data).frame = .ok
          (.write (Transaction.write address data) store,
           { machine with board, bus := Transaction.write address data }) := by
        unfold transfer
        simp only [BusItem.frame, if_true]
        rw [stored, ok_bind]
      exact ⟨_, board, _, moved, after, served⟩

/-- After `k` steps the machine shows a memory, between two cycles of its core.
The bounds keep every counter from overflowing. -/
structure Serving (machine : Machine ScriptedCore) (k : Nat) (memory : FlatMemory) : Prop where
  awake : machine.haltedAt = none
  low : machine.core.clock = false
  shows : machine.board.Shows memory
  ticks : machine.board.ticks.toNat = 2 * k
  period : machine.board.oscillator.period.toNat ≤ 2 ^ 33
  illegalWrites : machine.board.incidents.illegalWrites.toNat ≤ k
  timerReads : machine.board.incidents.timerReads.toNat ≤ k

/-- The core after a step in which it showed an item: it may have left reset, and
it has been served. -/
structure Advanced (core after : ScriptedCore) (released : Bool)
    (served : List (UInt32 × UInt8)) : Prop where
  clock : after.clock = false
  script : after.script = core.cycled.script
  current : after.current = core.cycled.current
  reset : after.reset = (core.cycled.reset && !released)
  served : after.served = served ++ core.cycled.served

variable {machine : Machine ScriptedCore} {k : Nat}

theorem observe_eq_ok (audit : Audit) (item : BusItem) (timestamp : UInt64) :
    audit.observe item.frame.pins item.frame.probes timestamp = .ok (none, audit) := by
  cases item <;> rfl

/-- The end of reset shows in nothing but the reset line. -/
theorem advanced_of_cycled {core : ScriptedCore} (level released : Bool) (edges : UInt64) :
    let cycled := { core.cycled with realTimeClock := level, realTimeEdges := edges }
    Advanced core (if released then cycled.setReset false else cycled) released [] := by
  cases released with
  | false => exact ⟨rfl, rfl, rfl, (Bool.and_true _).symm, rfl⟩
  | true => exact ⟨rfl, rfl, rfl, (Bool.and_false _).symm, rfl⟩

theorem Advanced.serve {core after : ScriptedCore} {released : Bool}
    (advanced : Advanced core after released []) (served : List (UInt32 × UInt8)) :
    Advanced core { after with served := served ++ after.served } released served :=
  { advanced with
    served := by
      show served ++ after.served = _
      rw [advanced.served]
      rfl }

/-- The stages of a step up to the transaction succeed. They pass the time of a
step, end reset when that is over, and touch neither the memory nor a counter. -/
theorem Serving.stage (serving : Serving machine k memory) (early : k < 2 ^ 62)
    (shown : machine.core.cycled.current = item.frame) :
    ∃ high low report board,
      machine.halfCycle true = .ok high ∧ high.halfCycle false = .ok low ∧
      housekeep low.core low.settings low.shownFrame low.board = .ok (report, board) ∧
      overflowOf report.complaints = none ∧ report.sampled = item.frame ∧
      let staged := ({ low with board } : Machine ScriptedCore).audited report board.audit
      Serving staged (k + 1) memory ∧ staged.settings = machine.settings ∧
        staged.board.incidents = machine.board.incidents ∧
        Advanced machine.core staged.core
          (decide (machine.settings.resetHalfCycles.toNat ≤ 2 * (k + 1))) [] := by
  have ticks := serving.ticks
  have period := serving.period
  have size : UInt64.size = 2 ^ 64 := rfl
  obtain ⟨high, level, edges, oscillator, samePeriod, rising, falling⟩ :=
    machine.cycle_eq_ok (by omega)
  let low := machine.passing machine.core.cycled level edges oscillator
    (machine.board.ticks + 1 + 1)
  have time : low.board.ticks.toNat = 2 * (k + 1) := by
    show (machine.board.ticks + 1 + 1).toNat = _
    rw [UInt64.toNat_add, UInt64.toNat_add, ticks]
    simp only [UInt64.reduceToNat]
    omega
  have lowShows : low.board.Shows memory := { serving.shows with }
  obtain ⟨report, board, kept, sampled, timestamp, sound, shows, sameTicks, sameOscillator,
    sameIncidents⟩ := housekeep_eq_ok low.core low.settings item lowShows
  rw [← show low.shownFrame = item.frame from shown] at kept
  have released : machine.settings.resetHalfCycles ≤ report.timestamp ↔
      machine.settings.resetHalfCycles.toNat ≤ 2 * (k + 1) := by
    rw [UInt64.le_iff_toNat_le, timestamp, time]
  have advanced : Advanced machine.core
      (({ low with board } : Machine ScriptedCore).audited report board.audit).core
      (decide (machine.settings.resetHalfCycles.toNat ≤ 2 * (k + 1))) [] := by
    have left : Advanced machine.core _ _ [] := advanced_of_cycled level
      (decide (machine.settings.resetHalfCycles.toNat ≤ 2 * (k + 1))) edges
    simp only [decide_eq_true_eq, ← released] at left ⊢
    exact left
  refine ⟨high, low, report, board, rising, falling, kept, sound, sampled, ?_, rfl,
    sameIncidents, advanced⟩
  refine
    { awake := serving.awake
      low := advanced.clock
      shows := { shows with }
      ticks := (congrArg UInt64.toNat sameTicks).trans time
      period := ?_
      illegalWrites := ?_
      timerReads := ?_ }
  · show board.oscillator.period.toNat ≤ _
    rw [sameOscillator]
    exact (congrArg UInt64.toNat samePeriod).trans_le period
  · show board.incidents.illegalWrites.toNat ≤ _
    rw [sameIncidents]
    exact Nat.le_succ_of_le serving.illegalWrites
  · show board.incidents.timerReads.toNat ≤ _
    rw [sameIncidents]
    exact Nat.le_succ_of_le serving.timerReads

/-- A machine that shows a memory takes a step, serves the item of its core from
the memory, and shows what the item makes of it. -/
theorem Serving.step (serving : Serving machine k memory) (early : k < 2 ^ 62) (plain : item.Plain)
    (shown : machine.core.cycled.current = item.frame) :
    ∃ report after,
      machine.step = .ok { report := some report, overflow := none, machine := after } ∧
      Serving after (k + 1) (item.apply memory) ∧ after.settings = machine.settings ∧
      Advanced machine.core after.core
        (decide (machine.settings.resetHalfCycles.toNat ≤ 2 * (k + 1))) (item.answer memory) := by
  obtain ⟨high, low, report, board, rising, falling, kept, sound, sampled, staged, settings,
    incidents, advanced⟩ := serving.stage early shown
  have size : UInt64.size = 2 ^ 64 := rfl
  have illegalWrites := serving.illegalWrites
  have timerReads := serving.timerReads
  rw [← incidents] at illegalWrites timerReads
  obtain ⟨transfer, moved, bus, transferred, shows, served⟩ :=
    transfer_eq_ok _ staged.shows plain (advanced.current.trans shown) (by omega) (by omega)
  rw [← sampled] at transferred
  have observed : board.audit.observe report.sampled.pins report.sampled.probes report.timestamp =
      .ok (none, board.audit) := by
    rw [sampled]
    exact observe_eq_ok ..
  obtain ⟨final, finished⟩ := finishStep_eq_ok observed transferred
  refine ⟨final, _, step_eq_ok serving.awake rising falling kept sound finished, ?_, settings,
    advanced.serve _⟩
  exact
    { awake := staged.awake
      low := staged.low
      shows := { shows with }
      ticks := (congrArg UInt64.toNat served.ticks).trans staged.ticks
      period := (congrArg (·.period.toNat) served.oscillator).trans_le staged.period
      illegalWrites := served.illegalWrites.trans (Nat.succ_le_succ illegalWrites)
      timerReads := served.timerReads.trans (Nat.succ_le_succ timerReads) }

/-! ## Runs -/

/-- The number of steps for which reset is held. -/
def resetSteps (settings : Settings) : Nat :=
  max 1 ((settings.resetHalfCycles.toNat + 1) / 2)

/-- A step in reset changes nothing that the core shows, and ends reset once its
time is over. -/
theorem Serving.stepInReset (serving : Serving machine k memory)
    (held : machine.core.reset = true) (blank : machine.core.current = {}) (early : k < 2 ^ 62) :
    ∃ report after,
      machine.step = .ok { report := some report, overflow := none, machine := after } ∧
      Serving after (k + 1) memory ∧ after.settings = machine.settings ∧
      after.core.reset = !decide (machine.settings.resetHalfCycles.toNat ≤ 2 * (k + 1)) ∧
      after.core.current = {} ∧ after.core.script = machine.core.script ∧
      after.core.served = machine.core.served := by
  have cycled := ScriptedCore.cycled_of_reset serving.low held
  have plain : BusItem.idle.Plain := trivial
  obtain ⟨report, after, stepped, next, settings, advanced⟩ :=
    serving.step early plain (by rw [cycled, blank]; rfl)
  refine ⟨report, after, stepped, next, settings, ?_, ?_, ?_, ?_⟩
  · rw [advanced.reset, cycled, held, Bool.true_and]
  · rw [advanced.current, cycled, blank]
  · rw [advanced.script, cycled]
  · rw [advanced.served, cycled]
    rfl

/-- A machine in reset idles until the reset time is over, and has then released
its core without taking a frame from the script. -/
theorem Serving.leaveReset {n : Nat} (serving : Serving machine k memory)
    (held : machine.core.reset = true) (blank : machine.core.current = {})
    (last : k + n + 1 = resetSteps machine.settings) (early : k + n < 2 ^ 62) :
    ∃ reports after, reports.length = n + 1 ∧ Steps machine reports after ∧
      Serving after (k + n + 1) memory ∧ after.core.reset = false ∧
      after.core.script = machine.core.script ∧ after.core.served = machine.core.served := by
  unfold resetSteps at last
  induction n generalizing machine k with
  | zero =>
      obtain ⟨report, after, stepped, next, -, reset, -, script, served⟩ :=
        serving.stepInReset held blank early
      have ended : machine.settings.resetHalfCycles.toNat ≤ 2 * (k + 1) := by omega
      refine ⟨[report], after, rfl, .cons stepped (.nil _), next, ?_, script, served⟩
      rw [reset, decide_eq_true ended, Bool.not_true]
  | succ n ih =>
      obtain ⟨report, after, stepped, next, settings, reset, stillBlank, script, served⟩ :=
        serving.stepInReset held blank (by omega)
      have notEnded : ¬ machine.settings.resetHalfCycles.toNat ≤ 2 * (k + 1) := by omega
      have stillHeld : after.core.reset = true := by
        rw [reset, decide_eq_false notEnded, Bool.not_false]
      obtain ⟨reports, final, length, steps, serves, released, sameScript, sameServed⟩ :=
        ih next stillHeld stillBlank (by rw [settings]; omega) (by omega)
      refine ⟨report :: reports, final, by rw [List.length_cons, length], .cons stepped steps,
        ?_, released, sameScript.trans script, sameServed.trans served⟩
      rw [show k + (n + 1) + 1 = k + 1 + n + 1 by omega]
      exact serves

/-- Outside reset every step takes one item of the script, and the core is served
what the memory has at that point. -/
theorem Serving.serveScript {bios cartridge : Array UInt8} {earlier items : List BusItem}
    (serving : Serving machine k (BusItem.memoryAfter bios cartridge earlier))
    (released : machine.core.reset = false)
    (script : machine.core.script = BusItem.script items)
    (plain : ∀ item ∈ items, item.Plain) (early : k + items.length < 2 ^ 62) :
    ∃ reports after, reports.length = items.length ∧ Steps machine reports after ∧
      after.core.script = [] ∧
      after.core.reads = machine.core.reads ++ BusItem.answers bios cartridge earlier items := by
  induction items generalizing machine k earlier with
  | nil => exact ⟨[], machine, rfl, .nil _, script, (List.append_nil _).symm⟩
  | cons item rest ih =>
      rw [BusItem.script_cons] at script
      rw [List.length_cons] at early
      have cycled := ScriptedCore.cycled_of_script serving.low released script
      obtain ⟨report, after, stepped, next, -, advanced⟩ := serving.step (by omega)
        (plain item List.mem_cons_self) (by rw [cycled])
      rw [← BusItem.memoryAfter_cons] at next
      have stillReleased : after.core.reset = false := by
        rw [advanced.reset, cycled]
        show (machine.core.reset && _) = false
        rw [released, Bool.false_and]
      obtain ⟨reports, final, length, steps, done, reads⟩ := ih next stillReleased
        (by rw [advanced.script, cycled])
        (fun other member => plain other (List.mem_cons_of_mem _ member)) (by omega)
      refine ⟨report :: reports, final, by rw [List.length_cons, List.length_cons, length],
        .cons stepped steps, done, ?_⟩
      have single : (item.answer (BusItem.memoryAfter bios cartridge earlier)).reverse =
          item.answer (BusItem.memoryAfter bios cartridge earlier) := by cases item <;> rfl
      rw [reads, BusItem.answers, ← List.append_assoc]
      congr 1
      rw [ScriptedCore.reads, ScriptedCore.reads, advanced.served, List.reverse_append, single,
        cycled]

/-- A machine at power-on with a boot image, and with a cartridge if there is one. -/
def equipped {σ : Type} [Core σ] (core : σ) (settings : Settings) (bios : Array UInt8)
    (cartridge : Option (Array UInt8)) : Except Error (Machine σ) := do
  let machine ← (start core settings).loadBios bios
  match cartridge with
  | none => .ok machine
  | some image => machine.loadCartridge image

/-- At power-on the core is held in reset, with its script as it was. -/
theorem core_start (core : ScriptedCore) (settings : Settings) :
    (start core settings).core.clock = false ∧ (start core settings).core.reset = true ∧
      (start core settings).core.current = {} ∧
      (start core settings).core.script = core.script ∧
      (start core settings).core.served = core.served := by
  unfold start holdReset forwardKeys
  dsimp only
  split
  · exact ⟨rfl, rfl, rfl, rfl, rfl⟩
  · exact ⟨rfl, rfl, rfl, rfl, rfl⟩

/-- A machine at power-on with these images in its sockets. -/
def socketed (core : ScriptedCore) (settings : Settings) (bios cartridge : Rom) :
    Machine ScriptedCore :=
  { start core settings with board := { Board.initial settings with bios, cartridge } }

/-- At power-on working memory is zero and no register has been written. -/
theorem serving_socketed (core : ScriptedCore) (settings : Settings) {biosRom cartridgeRom : Rom}
    {bios cartridge : Array UInt8} (biosHolds : biosRom.Holds .bios bios)
    (cartridgeHolds : cartridgeRom.Holds .cartridge cartridge) :
    Serving (socketed core settings biosRom cartridgeRom) 0
      (BusItem.memoryAfter bios cartridge []) where
  awake := (settings_start core settings).2
  low := (core_start core settings).1
  shows :=
    { bios := biosHolds
      cartridge := cartridgeHolds
      ram := fun _ inside => Cells.get_replicate inside
      registers := RegisterBank.untouched_initial }
  ticks := rfl
  period := Oscillator.toNat_periodOf_le _ _
  illegalWrites := le_rfl
  timerReads := le_rfl

/-- Putting images into their sockets succeeds, and the machine then shows them. -/
theorem serving_equipped (core : ScriptedCore) (settings : Settings) {bios : Array UInt8}
    {cartridge : Option (Array UInt8)} (filled : bios ≠ #[])
    (fits : ∀ image ∈ cartridge, image.size ≤ Rom.cartridgeLimit) :
    ∃ machine, equipped core settings bios cartridge = .ok machine ∧
      machine.core = (start core settings).core ∧ machine.settings = settings ∧
      Serving machine 0 (BusItem.memoryAfter bios (cartridge.getD #[]) []) := by
  have board : (start core settings).board = Board.initial settings := board_holdReset _
  have biosMade : Rom.bios bios = .ok (.ofImage .bios bios) := by
    rw [Rom.bios, if_neg (by simpa using filled)]
  have biosHolds := Rom.ofImage_holds .bios bios
  have loaded : (start core settings).loadBios bios =
      .ok (socketed core settings (.ofImage .bios bios) (.empty .cartridge)) := by
    rw [loadBios, biosMade, board]
    rfl
  rw [equipped, loaded]
  cases cartridge with
  | none =>
      exact ⟨_, rfl, rfl, (settings_start core settings).1,
        serving_socketed core settings biosHolds (Rom.empty_holds .cartridge)⟩
  | some image =>
      have cartridgeMade : Rom.cartridge image = .ok (.ofImage .cartridge image) := by
        rw [Rom.cartridge, if_neg (Nat.not_lt.mpr (fits image rfl))]
      refine ⟨socketed core settings (.ofImage .bios bios) (.ofImage .cartridge image), ?_, rfl,
        (settings_start core settings).1,
        serving_socketed core settings biosHolds (Rom.ofImage_holds .cartridge image)⟩
      show loadCartridge _ image = _
      rw [loadCartridge, cartridgeMade]
      rfl

/-- The bus is a flat memory. From power-on with any images and settings, a script
that leaves the registers alone runs to its end, and every read is served the byte
that the images and the writes before it define. -/
theorem reads_of_script (core : ScriptedCore) (settings : Settings) (bios : Array UInt8)
    (cartridge : Option (Array UInt8)) (items : List BusItem) (filled : bios ≠ #[])
    (fits : ∀ image ∈ cartridge, image.size ≤ 2 * 1024 * 1024)
    (resetTime : settings.resetHalfCycles.toNat < 2 ^ 32) (short : items.length < 2 ^ 32)
    (plain : ∀ item ∈ items, item.Plain) (script : core.script = BusItem.script items)
    (unserved : core.served = []) :
    ∃ machine after, equipped core settings bios cartridge = .ok machine ∧
      machine.run (max 1 ((settings.resetHalfCycles.toNat + 1) / 2) + items.length) =
        .ok (none, after) ∧
      after.core.script = [] ∧
      after.core.reads = BusItem.answers bios (cartridge.getD #[]) [] items := by
  obtain ⟨machine, made, core_eq, settings_eq, serving⟩ :=
    serving_equipped core settings filled fits
  obtain ⟨-, held, blank, startScript, startServed⟩ := core_start core settings
  rw [← core_eq] at held blank startScript startServed
  obtain ⟨n, steps⟩ : ∃ n, resetSteps settings = n + 1 :=
    Nat.exists_eq_add_one.mpr (Nat.lt_of_lt_of_le Nat.one_pos (le_max_left _ _))
  have bound : n + 1 ≤ 2 ^ 32 := by
    rw [← steps, resetSteps]
    omega
  obtain ⟨resetReports, released, resetLength, resetRun, serves, free, sameScript, sameServed⟩ :=
    serving.leaveReset held blank (by rw [settings_eq, steps, Nat.zero_add]) (by omega)
  obtain ⟨reports, after, length, run, done, reads⟩ := serves.serveScript free
    (sameScript.trans (startScript.trans script)) plain (by omega)
  refine ⟨machine, after, made, run_eq_ok_iff.mpr ⟨resetReports ++ reports, ?_,
    resetRun.append run⟩, done, ?_⟩
  · rw [List.length_append, resetLength, length, ← steps]
    rfl
  · have nothing : released.core.reads = [] := by
      rw [ScriptedCore.reads, sameServed, startServed, unserved]
      rfl
    rw [reads, nothing, List.nil_append]

/-- A script that meets every window: a write to working memory and its mirror
beyond the 21 lines, a refused write, and reads of both images behind their ends. -/
def windowItems : List BusItem :=
  [ .write 0x1005 0xAB, .write 0x0001 0x11, .idle, .read 0x201005, .read 0x0003, .read 0x0005,
    .read 0x2052, .read 0x2102 ]

theorem reads_of_script_windows :
    ∃ (machine after : Machine ScriptedCore),
      equipped { script := BusItem.script windowItems } {} #[7, 8, 9] (some #[1, 2, 3, 4, 5]) =
        .ok machine ∧
      machine.run 12 = .ok (none, after) ∧ after.core.script = [] ∧
      after.core.reads =
        [(0x201005, 0xAB), (0x0003, 0), (0x0005, 8), (0x2052, 0xFF), (0x2102, 3)] := by
  have served : BusItem.answers #[7, 8, 9] #[1, 2, 3, 4, 5] [] windowItems =
      [(0x201005, 0xAB), (0x0003, 0), (0x0005, 8), (0x2052, 0xFF), (0x2102, 3)] := by
    decide +kernel
  obtain ⟨machine, after, made, ran, done, reads⟩ :=
    reads_of_script { script := BusItem.script windowItems } {} #[7, 8, 9] (some #[1, 2, 3, 4, 5])
      windowItems (by decide) (by simp) (by decide) (by decide) (by decide) rfl rfl
  exact ⟨machine, after, made, ran, done, reads.trans served⟩

end Machine

end Handheld
