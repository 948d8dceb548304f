/-
# Bus reads are invisible

Two scripted cores go through one script, except that the second may read, at any
address, where the first is idle. A scripted core does nothing with what it reads but to
note it, so their machines give the same answers and do the same. They differ in what
reads leave behind: the record on the board, the last transaction on the bus, and the
notes of the core.

No bound is put on what the hosts do. Should one of the machines run into a fault at
last, then so does the other, at the same place.
-/

import Handheld.Proofs.Board.Reads
import Handheld.Proofs.Machine.PairedAnswers
import Handheld.Proofs.Machine.ScriptedPairs

namespace Handheld

open Checked

/-- The frames are the same, or the second one reads where the first is idle. -/
inductive Frame.Idler : Frame → Frame → Prop
  | same (frame : Frame) : Idler frame frame
  | read {frame : Frame} (idle : frame.pins.busStatus = .idle) (address : UInt32) :
      Idler frame { frame with pins := { frame.pins with busStatus := .memRead, address } }

theorem Frame.Idler.probes_eq {first second : Frame} (idler : first.Idler second) :
    first.probes = second.probes := by
  cases idler <;> rfl

namespace ScriptedCore

/-- The second core reads where the first is idle, and is otherwise the same but for its
notes. -/
structure Idler (first second : ScriptedCore) : Prop extends
    InStep Frame.Idler first second where
  realTimeEdges : first.realTimeEdges = second.realTimeEdges
  keys : first.keys = second.keys

theorem Idler.refl (core : ScriptedCore) : core.Idler core where
  script := List.forall₂_same.mpr fun frame _ => .same frame
  current := .same core.current
  clock := rfl
  reset := rfl
  realTimeClock := rfl
  lcd := rfl
  contrast := rfl
  realTimeEdges := rfl
  keys := rfl

theorem pairing_idler : Core.Pairing Frame.Idler Idler where
  setClock := by
    intro first second idler level
    have moved := idler.toInStep.setClock (.same {}) level
    obtain ⟨script, current, same⟩ := first.setClock_eq level
    obtain ⟨otherScript, otherCurrent, otherSame⟩ := second.setClock_eq level
    show (first.setClock level).Idler (second.setClock level)
    rw [same, otherSame] at moved ⊢
    exact { moved with realTimeEdges := idler.realTimeEdges, keys := idler.keys }
  setReset idler level :=
    { idler.toInStep.setReset (.same {}) level with
      realTimeEdges := idler.realTimeEdges
      keys := idler.keys }
  setRealTimeClock := by
    intro first second idler level
    refine { idler with realTimeClock := rfl, realTimeEdges := ?_ }
    show (if level != first.realTimeClock then _ else _) = _
    rw [idler.realTimeClock, idler.realTimeEdges]
    rfl
  setDataIn idler _ := { idler with }
  setKeys idler _ := { idler with keys := rfl }
  settle idler := idler
  shown idler := idler.current
  lcdMemory idler := idler.lcd
  lcdContrast idler := idler.contrast

end ScriptedCore

namespace Board

/-- The boards differ in their records of reads only, and both can be read. -/
structure SameButReads (passed : Nat) (first second : Board) : Prop where
  forgotten : first.forgetReads = second.forgetReads
  first : first.Readable passed
  second : second.Readable passed

namespace SameButReads

variable {passed left : Nat} {first second : Board} (same : SameButReads passed first second)
include same

theorem ticks_eq : first.ticks = second.ticks := by
  have forgotten := congrArg ticks same.forgotten
  exact forgotten

theorem registers_eq : first.registers = second.registers := by
  have forgotten := congrArg registers same.forgotten
  exact forgotten

theorem audit_eq : first.audit = second.audit := by
  have forgotten := congrArg audit same.forgotten
  exact forgotten

theorem screen_eq : first.screen = second.screen := by
  have forgotten := congrArg screen same.forgotten
  exact forgotten

theorem view_eq (address : UInt32) : first.view address = second.view address := by
  have forgotten := congrArg (view · address) same.forgotten
  exact forgotten

theorem mono (less : left ≤ passed) : SameButReads left first second :=
  ⟨same.forgotten, same.first.mono less, same.second.mono less⟩

/-- The audits have nothing to do with reads. -/
theorem withAudit (audit : Audit) :
    SameButReads passed { first with audit } { second with audit } where
  forgotten := congrArg (fun board => { board with audit }) same.forgotten
  first := { same.first with }
  second := { same.second with }

end SameButReads

variable {passed left : Nat} {first second : Board}

/-- Boards that differ in their reads have the same results, but for the reads. -/
theorem Blind.map_eq {β : Type} {operation : Board → Checked (β × Board)} (blind : Blind operation)
    (same : first.forgetReads = second.forgetReads) :
    (operation first).map (fun (result, changed) => (result, changed.forgetReads)) =
      (operation second).map fun (result, changed) => (result, changed.forgetReads) := by
  rw [← blind, ← blind, same]

/-- Whatever is blind to reads does the same with both boards. -/
theorem Blind.alike {β : Type} {operation : Board → Checked (β × Board)} (blind : Blind operation)
    (kept : ∀ {board changed result}, board.Readable passed →
      operation board = .ok (result, changed) → changed.Readable left)
    (same : SameButReads passed first second) :
    Alike (fun x y => x.1 = y.1 ∧ SameButReads left x.2 y.2) (operation first)
      (operation second) := by
  apply (Comparison.alike.traced (Alike.of_map_eq (blind.map_eq same.forgotten))).imp
  rintro ⟨result, changed⟩ ⟨otherResult, otherChanged⟩ ⟨together, done, otherDone⟩
  obtain ⟨sameResult, forgotten⟩ := Prod.mk.inj together
  exact ⟨sameResult, forgotten, kept same.first done, kept same.second otherDone⟩

/-- Boards that both serve a read give the same byte. -/
theorem SameButReads.fetch (same : SameButReads 2 first second) (bus : Transaction)
    (codeBank : UInt8) :
    Alike (fun x y => x.1.data = y.1.data ∧ SameButReads 0 x.2 y.2) (first.fetch bus codeBank)
      (second.fetch bus codeBank) := by
  obtain ⟨report, changed, fetched, seen, forgotten, readable⟩ :=
    same.first.fetch_eq_ok bus codeBank
  obtain ⟨otherReport, otherChanged, otherFetched, otherSeen, otherForgotten, otherReadable⟩ :=
    same.second.fetch_eq_ok bus codeBank
  rw [same.view_eq, otherSeen] at seen
  rw [fetched, otherFetched]
  exact .ok ⟨(Except.ok.inj seen).symm,
    forgotten.trans (same.forgotten.trans otherForgotten.symm), readable, otherReadable⟩

/-- A step does the same with boards that differ in their reads. -/
theorem simulation_sameButReads (settings : Settings) :
    Simulation .alike Frame.Idler SameButReads settings settings where
  frameSource := rfl
  resetHalfCycles := rfl
  ticks same := same.ticks_eq
  halfCycle same := blind_halfCycle.alike (fun readable => readable.halfCycle) same
  latchEdges := by
    intro first second frame otherFrame same idler
    rw [← idler.probes_eq]
    exact (blind_latchEdges frame.probes).alike (fun readable => readable.latchEdges) same
  present same memory contrast :=
    ((blind_present memory contrast).alike (fun readable => readable.present) same).imp
      fun _ _ shown => shown.2
  tickRegisters same :=
    (blind_tickRegisters settings).alike (fun readable => readable.tickRegisters) same
  collectComplaints := by
    intro first second frame otherFrame same idler
    have sameFound : first.audit.collectComplaints frame.pins frame.probes =
        second.audit.collectComplaints otherFrame.pins otherFrame.probes := by
      rw [same.audit_eq]
      cases idler <;> rfl
    rw [sameFound]
    apply (Alike.refl _).imp
    rintro collected _ rfl
    exact ⟨rfl, same.withAudit _⟩
  observe := by
    intro first second frame otherFrame same idler timestamp
    have sameObserved : first.audit.observe frame.pins frame.probes timestamp =
        second.audit.observe otherFrame.pins otherFrame.probes timestamp := by
      rw [same.audit_eq]
      cases idler <;> rfl
    rw [sameObserved]
    apply (Alike.refl _).imp
    rintro observed _ rfl
    exact same.withAudit _
  enterInterrupt := by
    intro first second frame otherFrame same idler timestamp
    rw [same.audit_eq]
    cases idler <;> exact same.withAudit _
  countCycle := by
    intro first second frame otherFrame same idler
    rw [same.audit_eq]
    cases idler <;> exact same.withAudit _
  rest same := same.mono (Nat.zero_le _)

/-- Hosts do the same with boards that differ in their reads, and see the same of them, the
coverage apart. -/
theorem tended_sameButReads (settings : Settings) :
    Tended .alike (SameButReads 0) settings settings where
  forwardKeys := rfl
  stepsPerFrame := rfl
  registers same := same.registers_eq
  frames same := congrArg Screen.frames same.screen_eq
  redrawRequested same := congrArg Screen.redrawRequested same.screen_eq
  view same := same.view_eq
  coverage := by
    intro first second same
    obtain ⟨drawn, done⟩ := same.first.coverage_succeeds
    obtain ⟨otherDrawn, otherDone⟩ := same.second.coverage_succeeds
    rw [done, otherDone]
    exact .ok trivial
  withBios := by
    intro first second image bios same made
    have held := Rom.holds_of_bios made
    exact
      { forgotten := congrArg (fun board => { board with bios := bios.clearTouched }) same.forgotten
        first := { same.first with bios := ⟨image, held⟩ }
        second := { same.second with bios := ⟨image, held⟩ } }
  withCartridge := by
    intro first second image cartridge same made
    have held := Rom.holds_of_cartridge made
    exact
      { forgotten :=
          congrArg (fun board => { board with cartridge := cartridge.clearTouched }) same.forgotten
        first := { same.first with cartridge := ⟨image, held⟩ }
        second := { same.second with cartridge := ⟨image, held⟩ } }
  setTable := by
    intro first second same table
    unfold setTable
    rw [same.audit_eq]
    exact same.withAudit _
  setKeys same keys :=
    { forgotten := congrArg (setKeys · keys) same.forgotten
      first := { same.first with }
      second := { same.second with } }
  takeRedraw same :=
    { forgotten :=
        congrArg (fun board => { board with screen := board.screen.takeRedraw.2 }) same.forgotten
      first := { same.first with }
      second := { same.second with } }
  writeRegister same offset data :=
    (blind_writeRegister offset data).alike (fun readable => readable.writeRegister) same
  raise := by
    intro first second same offset mask
    rw [same.registers_eq]
    apply (Comparison.alike.traced (Alike.refl _)).imp
    rintro ⟨raised, registers⟩ _ ⟨rfl, done, -⟩
    refine ⟨rfl, ?_, ?_, ?_⟩
    · exact congrArg (fun board => { board with registers }) same.forgotten
    · rw [← same.registers_eq] at done
      exact same.first.move (.raise offset mask done) same.first.counted
    · exact same.second.move (.raise offset mask done) same.second.counted
  powerOn := by
    intro first second same
    refine ⟨?_, same.first.powerOn settings, same.second.powerOn settings⟩
    have sameBios : first.bios.clearTouched = second.bios.clearTouched :=
      congrArg bios same.forgotten
    have sameCartridge : first.cartridge.clearTouched = second.cartridge.clearTouched :=
      congrArg cartridge same.forgotten
    unfold powerOn
    rw [sameBios, sameCartridge, same.audit_eq]

end Board

namespace Machine

/-- The machines differ in nothing but what reads leave behind. -/
structure SameButReads (first second : Machine ScriptedCore) : Prop where
  core : first.core.Idler second.core
  board : first.board.forgetReads = second.board.forgetReads
  settings : first.settings = second.settings
  running : first.running = second.running
  haltedAt : first.haltedAt = second.haltedAt

theorem simulation_sameButReads (settings : Settings) :
    Simulation .alike Frame.Idler ScriptedCore.Idler Board.SameButReads (fun _ _ => True) settings
      settings where
  coresPaired := ScriptedCore.pairing_idler
  sameCore := ScriptedCore.Idler.refl
  sameBus _ := trivial
  boardsSimulated := Board.simulation_sameButReads settings
  boardsTended := Board.tended_sameButReads settings
  transfers := by
    intro first second sampled otherSampled linked idler
    have rest := linked.board.mono (Nat.zero_le _)
    cases idler with
    | same =>
        apply transfer_linked ScriptedCore.pairing_idler (fun _ => trivial) linked
          ⟨rfl, rfl, rfl, rfl, rfl⟩ rest
        · intro address
          exact linked.board.fetch _ _
        · intro bus
          exact ((Board.blind_store bus).alike (fun readable => readable.store) rest).imp
            fun _ _ stored => stored.2
    | read idle address =>
        have quiet : first.transfer sampled = .ok (.none, first) := by
          unfold transfer
          simp only [idle]
        rw [quiet]
        unfold transfer
        dsimp only
        split
        · exact .ok { linked with board := rest }
        · obtain ⟨report, changed, fetched, -, forgotten, readable⟩ :=
            linked.board.second.fetch_eq_ok (.read address) sampled.probes.codeBank
          rw [fetched, ok_bind]
          exact .ok
            { linked with
              core := { linked.core with }
              board := ⟨linked.board.forgotten.trans forgotten.symm, rest.first, readable⟩ }

/-- Bus reads are functionally invisible. Two machines with equal settings and scripted
cores, of which the second may read where the first is idle, are given the same row of
actions. Either both run into the same fault, or they give the same answers and have
become the same machine up to what reads leave behind. They do get through as long as the
steps can be counted with 32 bits. -/
theorem reads_are_invisible {core other : ScriptedCore} (idler : core.Idler other)
    (settings : Settings) (actions : List (Action ScriptedCore)) :
    Alike (fun x y => x.1 = y.1 ∧ x.2.SameButReads y.2)
        ((start core settings).respondAll actions) ((start other settings).respondAll actions) ∧
      ((∀ action ∈ actions, action.Fits) → actions.length < 2 ^ 55 →
        (actions.map (Action.steps settings)).sum < 2 ^ 32 →
        Succeeds ((start core settings).respondAll actions)) := by
  constructor
  · have simulation := simulation_sameButReads settings
    have readable := Board.readable_initial settings
    have together := simulation.start idler ⟨rfl, readable, readable⟩
    apply (simulation.respondAll actions together).imp
    rintro ⟨answers, first⟩ ⟨otherAnswers, second⟩ ⟨sameAnswers, afterwards⟩
    refine ⟨sameAnswers, afterwards.core, afterwards.board.forgotten, ?_, afterwards.running,
      afterwards.haltedAt⟩
    exact afterwards.settings.trans afterwards.other.symm
  · intro fits few short
    exact respondAll_start_succeeds core settings fits few short

/-- Two idle cycles and a write. -/
def incurious : List Frame :=
  [{ probes := { codeBank := 1 } }] ++ ScriptedCore.idle 1 ++ ScriptedCore.write 0x1234 7

/-- The same, with reads of a banked cartridge address and of a timer. -/
def curious : List Frame :=
  [{ pins := { address := 0xA100, busStatus := .memRead }, probes := { codeBank := 1 } }] ++
    ScriptedCore.read 0x2036 ++ ScriptedCore.write 0x1234 7

/-- Load a cartridge, let the script run to its end, and look at what it has written. -/
def inspection : List (Action ScriptedCore) :=
  [.loadCartridge #[1, 2, 3], .run 8, .view 0x1234]

/-- The machine of a curious core has noted and counted two reads, and is otherwise that of
the other one. -/
theorem reads_are_invisible_curious :
    ScriptedCore.Idler { script := incurious } { script := curious } ∧
    ∃ answers first second,
      (start ({ script := incurious } : ScriptedCore) {}).respondAll inspection =
        .ok (answers, first) ∧
      (start ({ script := curious } : ScriptedCore) {}).respondAll inspection =
        .ok (answers, second) ∧
      first.SameButReads second ∧
      first.core.reads = [] ∧ second.core.reads = [(0xA100, 1), (0x2036, 0)] ∧
      first.board.incidents = {} ∧
      second.board.incidents = { timerReads := 1, bankHits := 1 } := by
  have scripts : List.Forall₂ Frame.Idler incurious curious :=
    .cons (.read rfl 0xA100) (.cons (.read rfl 0x2036) (.cons (.same _) .nil))
  have idler : ScriptedCore.Idler { script := incurious } { script := curious } :=
    { ScriptedCore.Idler.refl {} with script := scripts }
  obtain ⟨alike, succeeds⟩ := reads_are_invisible idler {} inspection
  obtain ⟨⟨answers, first⟩, responded⟩ := succeeds
    (by
      simp only [inspection, List.forall_mem_cons]
      exact ⟨trivial, trivial, trivial, List.forall_mem_nil _⟩)
    (by decide) (by decide)
  obtain ⟨⟨_, second⟩, otherResponded, rfl, same⟩ := alike.of_ok responded
  have left : ((start ({ script := incurious } : ScriptedCore) {}).respondAll inspection).map
      (fun result => (result.2.core.reads, result.2.board.incidents)) = .ok ([], {}) := by
    decide +kernel
  have otherLeft : ((start ({ script := curious } : ScriptedCore) {}).respondAll inspection).map
      (fun result => (result.2.core.reads, result.2.board.incidents)) =
      .ok ([(0xA100, 1), (0x2036, 0)], { timerReads := 1, bankHits := 1 }) := by
    decide +kernel
  rw [responded] at left
  rw [otherResponded] at otherLeft
  obtain ⟨notes, incidents⟩ := Prod.mk.inj (Except.ok.inj left)
  obtain ⟨otherNotes, otherIncidents⟩ := Prod.mk.inj (Except.ok.inj otherLeft)
  exact ⟨idler, answers, first, second, responded, otherResponded, same, notes, otherNotes,
    incidents, otherIncidents⟩

end Machine

end Handheld
