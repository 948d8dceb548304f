/-
# The audit does not feed back

What the audit sees, and nothing else does, has no effect on a machine. Two machines
are given the same images and the same inputs, but cycle tables of their own, scripts
that agree only on what the board acts on, and guard times of their own for interrupt
entries. They give the same answers and do the same work, step by step.

Cartridge reads that would need the code bank are set apart from the other incidents,
because the code bank is one of the signals that may differ.
-/

import Handheld.Proofs.Machine.Halting
import Handheld.Proofs.Machine.PairedAnswers
import Handheld.Proofs.Machine.ScriptedPairs

namespace Handheld

open Checked

/-- The frames agree on everything that the board acts on. -/
structure Frame.SameAccess (first second : Frame) : Prop extends first.SameTransfer second where
  stackPointer : first.probes.stackPointer = second.probes.stackPointer
  irqRenderDone : first.probes.irqRenderDone = second.probes.irqRenderDone
  irqCopyComplete : first.probes.irqCopyComplete = second.probes.irqCopyComplete

theorem Frame.SameAccess.refl (frame : Frame) : frame.SameAccess frame :=
  ⟨⟨rfl, rfl, rfl, rfl, rfl⟩, rfl, rfl, rfl⟩

/-- The incidents that are counted without looking at the code bank. -/
def Incidents.withoutBankHits (incidents : Incidents) : Incidents :=
  { incidents with bankHits := 0 }

/-- The counts agree, bank hits apart. -/
def Incidents.SameButBankHits (first second : Incidents) : Prop :=
  first.withoutBankHits = second.withoutBankHits

theorem Incidents.SameButBankHits.exists_eq {first second : Incidents}
    (same : first.SameButBankHits second) :
    ∃ bankHits, second = { first with bankHits } := by
  obtain ⟨illegal, dropped, unknown, timer, bank, hazards⟩ := first
  obtain ⟨otherIllegal, otherDropped, otherUnknown, otherTimer, otherBank, otherHazards⟩ := second
  cases same
  exact ⟨otherBank, rfl⟩

namespace Board

section

variable {first second : Incidents} (same : first.SameButBankHits second)
include same

theorem countTimerRead_agree (offset : UInt8) :
    Agree Incidents.SameButBankHits (countTimerRead first offset)
      (countTimerRead second offset) := by
  obtain ⟨bankHits, rfl⟩ := same.exists_eq
  unfold countTimerRead
  split
  · apply Agree.bind_same
    intro timerReads
    exact Agree.ok rfl
  · exact Agree.ok rfl

/-- Bank hits may be counted on one side only. -/
theorem countBankHit_agree (address : UInt32) (codeBank otherBank : UInt8) :
    Agree Incidents.SameButBankHits (countBankHit first address codeBank)
      (countBankHit second address otherBank) := by
  have apart {incidents counted : Incidents} {bank : UInt8}
      (done : countBankHit incidents address bank = .ok counted) :
      counted.withoutBankHits = incidents.withoutBankHits := by
    unfold countBankHit at done
    split at done
    · obtain ⟨bankHits, -, same⟩ := bind_eq_ok.mp done
      cases same
      rfl
    · cases done
      rfl
  constructor
  intro counted otherCounted done otherDone
  exact (apart done).trans (same.trans (apart otherDone).symm)

theorem countWrite_agree (write : RegisterWrite) :
    Agree Incidents.SameButBankHits (countWrite first write) (countWrite second write) := by
  obtain ⟨bankHits, rfl⟩ := same.exists_eq
  constructor
  intro counted otherCounted done otherDone
  have sameTimers := (reads_of_countWrite done).1
  have counts := countWrite_with first write first.timerReads bankHits
  rw [done, otherDone] at counts
  cases Except.ok.inj counts
  rw [← sameTimers]
  rfl

end

/-- The boards agree on everything but what the audit has found, and but for the bank
hits. -/
structure SameWork (first second : Board) : Prop where
  ticks : first.ticks = second.ticks
  ram : first.ram = second.ram
  bios : first.bios = second.bios
  cartridge : first.cartridge = second.cartridge
  registers : first.registers = second.registers
  screen : first.screen = second.screen
  oscillator : first.oscillator = second.oscillator
  renderDone : first.renderDone = second.renderDone
  copyComplete : first.copyComplete = second.copyComplete
  incidents : first.incidents.SameButBankHits second.incidents
  stackLimit : first.audit.stackLimit = second.audit.stackLimit

namespace SameWork

variable {first second : Board} {frame otherFrame : Frame} (same : first.SameWork second)
include same

theorem halfCycle_agree :
    Agree (fun x y => x.1 = y.1 ∧ x.2.SameWork y.2) first.halfCycle second.halfCycle := by
  unfold Board.halfCycle
  rw [← same.oscillator, ← same.ticks]
  apply Agree.bind_same
  rintro ⟨toggled, oscillator⟩
  apply Agree.bind_same
  intro ticks
  exact Agree.ok ⟨rfl, { same with ticks := rfl, oscillator := rfl }⟩

theorem latchEdges_agree (frames : frame.SameAccess otherFrame) :
    Agree (fun x y => x.1 = y.1 ∧ x.2.SameWork y.2) (first.latchEdges frame.probes)
      (second.latchEdges otherFrame.probes) := by
  unfold latchEdges
  rw [← same.renderDone, ← same.copyComplete, ← same.registers, ← frames.irqRenderDone,
    ← frames.irqCopyComplete]
  apply Agree.bind_same
  intro renderLatched
  apply Agree.bind_same
  intro copyLatched
  exact Agree.ok ⟨rfl, { same with registers := rfl, renderDone := rfl, copyComplete := rfl }⟩

theorem present_agree (memory : Option (Array UInt8)) (contrast : Option UInt8) :
    Agree (fun x y => x.2.SameWork y.2) (first.present memory contrast)
      (second.present memory contrast) := by
  unfold Board.present
  rw [← same.registers, ← same.ram, ← same.screen]
  cases memory with
  | some planar =>
      dsimp only
      rw [ok_bind, ok_bind]
      apply Agree.bind_same
      intro screen
      exact Agree.ok { same with ram := rfl, registers := rfl, screen := rfl }
  | none =>
      apply Agree.bind_same
      rintro ⟨planar, ram⟩
      apply Agree.bind_same
      intro screen
      exact Agree.ok { same with ram := rfl, registers := rfl, screen := rfl }

theorem tickRegisters_agree (settings : Settings) (guardTime : UInt64) :
    Agree (fun x y => x.1 = y.1 ∧ x.2.SameWork y.2) (first.tickRegisters settings)
      (second.tickRegisters { settings with irqGuardHalfCycles := guardTime }) := by
  unfold tickRegisters
  rw [← same.ticks, ← same.registers]
  apply Agree.bind_same
  rintro ⟨tick, registers⟩
  exact Agree.ok ⟨rfl, { same with ticks := rfl, registers := rfl }⟩

/-- The audits may complain of different things, but of the stack together. -/
theorem collectComplaints_agree (frames : frame.SameAccess otherFrame) :
    Agree (fun x y => Machine.overflowOf x.1 = Machine.overflowOf y.1 ∧
        SameWork { first with audit := x.2 } { second with audit := y.2 })
      (first.audit.collectComplaints frame.pins frame.probes)
      (second.audit.collectComplaints otherFrame.pins otherFrame.probes) := by
  constructor
  rintro ⟨found, audit⟩ ⟨otherFound, otherAudit⟩ collected otherCollected
  obtain ⟨rfl, complaints, rfl⟩ := Audit.of_collectComplaints collected
  obtain ⟨rfl, otherComplaints, rfl⟩ := Audit.of_collectComplaints otherCollected
  refine ⟨?_, { same with }⟩
  rw [Machine.overflowOf_ofFrame, Machine.overflowOf_ofFrame, frames.pl, frames.stackPointer,
    same.stackLimit]

theorem observe_agree (timestamp : UInt64) :
    Agree (fun x y => SameWork { first with audit := x.2 } { second with audit := y.2 })
      (first.audit.observe frame.pins frame.probes timestamp)
      (second.audit.observe otherFrame.pins otherFrame.probes timestamp) := by
  constructor
  rintro ⟨boundary, audit⟩ ⟨otherBoundary, otherAudit⟩ observed otherObserved
  obtain ⟨_, _, _, -, rfl⟩ := Audit.of_observe observed
  obtain ⟨_, _, _, -, rfl⟩ := Audit.of_observe otherObserved
  exact { same with }

theorem enterInterrupt (timestamp guardTime otherGuardTime : UInt64) :
    SameWork
      { first with audit := (first.audit.enterInterrupt frame.pins timestamp guardTime).2 }
      { second with audit :=
          (second.audit.enterInterrupt otherFrame.pins timestamp otherGuardTime).2 } := by
  rw [Audit.of_enterInterrupt, Audit.of_enterInterrupt]
  exact { same with }

theorem locate_eq (address : UInt32) : first.locate address = second.locate address := by
  rw [locate, locate, same.bios, same.cartridge]

theorem fetch_agree (bus : Transaction) (codeBank otherBank : UInt8) :
    Agree (fun x y => x.1.data = y.1.data ∧ x.2.SameWork y.2) (first.fetch bus codeBank)
      (second.fetch bus otherBank) := by
  unfold Board.fetch
  rw [← same.locate_eq]
  obtain ⟨region, offset⟩ := first.locate bus.address
  dsimp only
  cases region with
  | bios =>
      rw [← same.bios]
      apply Agree.bind_same
      rintro ⟨data, bios⟩
      exact Agree.ok ⟨rfl, { same with bios := rfl }⟩
  | ram =>
      rw [← same.ram]
      apply Agree.bind_same
      intro data
      exact Agree.ok ⟨rfl, same⟩
  | registers =>
      refine (countTimerRead_agree same.incidents _).bind ?_
      intro incidents otherIncidents counts
      rw [← same.registers]
      apply Agree.bind_same
      intro data
      exact Agree.ok ⟨rfl, { same with registers := rfl, incidents := counts }⟩
  | cartridge =>
      refine (countBankHit_agree same.incidents _ _ _).bind ?_
      intro incidents otherIncidents counts
      rw [← same.cartridge]
      apply Agree.bind_same
      rintro ⟨data, cartridge⟩
      exact Agree.ok ⟨rfl, { same with cartridge := rfl, incidents := counts }⟩

theorem writeRegister_agree (offset data : UInt8) :
    Agree (fun x y => x.1 = y.1 ∧ x.2.SameWork y.2) (first.writeRegister offset data)
      (second.writeRegister offset data) := by
  unfold writeRegister
  rw [← same.registers]
  apply Agree.bind_same
  rintro ⟨write, registers⟩
  refine (countWrite_agree same.incidents write).bind ?_
  intro incidents otherIncidents counts
  exact Agree.ok ⟨rfl, { same with registers := rfl, incidents := counts }⟩

theorem store_agree (bus : Transaction) :
    Agree (fun x y => x.2.SameWork y.2) (first.store bus) (second.store bus) := by
  unfold Board.store
  rw [← same.locate_eq]
  obtain ⟨region, offset⟩ := first.locate bus.address
  dsimp only
  cases region with
  | bios | cartridge =>
      obtain ⟨bankHits, others⟩ := same.incidents.exists_eq
      rw [others]
      apply Agree.bind_same
      intro illegalWrites
      exact Agree.ok { same with incidents := rfl }
  | ram =>
      rw [← same.ram]
      apply Agree.bind_same
      intro ram
      exact Agree.ok { same with ram := rfl }
  | registers =>
      refine (same.writeRegister_agree _ _).bind ?_
      rintro ⟨write, board⟩ ⟨_, otherBoard⟩ ⟨rfl, together⟩
      exact Agree.ok together

end SameWork

/-- Boards that do the same work are paired, with guard times of their own. -/
theorem pairing_sameWork (settings : Settings) (guardTime : UInt64) :
    Pairing Frame.SameAccess SameWork settings
      { settings with irqGuardHalfCycles := guardTime } where
  sameTransfer frames := frames.toSameTransfer
  frameSource := rfl
  resetHalfCycles := rfl
  ticks same := same.ticks
  halfCycle same := same.halfCycle_agree
  latchEdges same frames := same.latchEdges_agree frames
  present same memory contrast := same.present_agree memory contrast
  tickRegisters same := same.tickRegisters_agree settings guardTime
  collectComplaints same frames := same.collectComplaints_agree frames
  observe same _ timestamp := same.observe_agree timestamp
  enterInterrupt same _ timestamp := same.enterInterrupt timestamp _ _
  fetch same _ address := same.fetch_agree (.read address) _ _
  store same bus := same.store_agree bus
  countCycle same _ := { same with }

theorem sameWork_initial (settings : Settings) (guardTime : UInt64) :
    (initial settings).SameWork (initial { settings with irqGuardHalfCycles := guardTime }) :=
  ⟨rfl, rfl, rfl, rfl, rfl, rfl, rfl, rfl, rfl, rfl, rfl⟩

theorem SameWork.powerOn {first second : Board} (same : first.SameWork second)
    (settings : Settings) (guardTime : UInt64) :
    (first.powerOn settings).SameWork
      (second.powerOn { settings with irqGuardHalfCycles := guardTime }) :=
  { sameWork_initial settings guardTime with
    bios := congrArg Rom.clearTouched same.bios
    cartridge := congrArg Rom.clearTouched same.cartridge
    stackLimit := rfl }

theorem SameWork.view_eq {first second : Board} (same : first.SameWork second)
    (address : UInt32) : first.view address = second.view address := by
  unfold view
  rw [same.locate_eq, same.bios, same.ram, same.registers, same.cartridge]

/-- Boards that do the same work are of the same use to their hosts. -/
theorem tended_sameWork (settings : Settings) (guardTime : UInt64) :
    Tended .agree SameWork settings { settings with irqGuardHalfCycles := guardTime } where
  forwardKeys := rfl
  stepsPerFrame := rfl
  registers same := same.registers
  frames same := congrArg Screen.frames same.screen
  redrawRequested same := congrArg Screen.redrawRequested same.screen
  view same := same.view_eq
  coverage _ := ⟨fun _ _ _ _ => trivial⟩
  withBios same _ := { same with bios := rfl }
  withCartridge same _ := { same with cartridge := rfl }
  setTable same _ := { same with }
  setKeys same keys :=
    { same with registers := congrArg (RegisterBank.setKeys · keys) same.registers }
  takeRedraw same :=
    { same with screen := congrArg (fun screen => screen.takeRedraw.2) same.screen }
  writeRegister same := same.writeRegister_agree
  raise same offset mask := by
    rw [← same.registers]
    exact Agree.refl (fun _ => ⟨rfl, { same with registers := rfl }⟩) _
  powerOn same := same.powerOn settings guardTime

end Board

namespace Machine

/-! ## Answers -/

/-- Inputs that differ at most in what the audit is told, and in what an exchanged core
shows to the audit. -/
inductive Action.SameInput : Action ScriptedCore → Action ScriptedCore → Prop
  | refl (action : Action ScriptedCore) : SameInput action action
  | setTable (table other : CycleTable) : SameInput (.setTable table) (.setTable other)
  | exchangeCore {core other : ScriptedCore} :
      core.Twins Frame.SameAccess [] [] other → SameInput (.exchangeCore core) (.exchangeCore other)

theorem Action.SameInput.steps_eq {action other : Action ScriptedCore}
    (same : action.SameInput other) (settings : Settings) (guardTime : UInt64) :
    other.steps { settings with irqGuardHalfCycles := guardTime } = action.steps settings := by
  cases same with
  | refl => cases action <;> rfl
  | setTable | exchangeCore => rfl

/-- The machines do the same work with cores at the same places of their scripts. -/
structure SameCourse (settings : Settings) (guardTime : UInt64)
    (first second : Machine ScriptedCore) : Prop extends
    Paired (ScriptedCore.Twins Frame.SameAccess [] []) Board.SameWork settings
      { settings with irqGuardHalfCycles := guardTime } first second where
  running : first.running = second.running

/-- Scripted cores that show the same accesses are paired. -/
theorem pairing_sameAccess :
    Core.Pairing Frame.SameAccess (ScriptedCore.Twins Frame.SameAccess [] []) :=
  ScriptedCore.Twins.pairing (.refl {}) fun frames => frames.address

/-- Doing the same work survives steps and hosts. -/
theorem simulation_sameWork (settings : Settings) (guardTime : UInt64) :
    Simulation .agree Frame.SameAccess (ScriptedCore.Twins Frame.SameAccess [] [])
      (fun _ => Board.SameWork) (fun _ _ => True) settings
      { settings with irqGuardHalfCycles := guardTime } where
  coresPaired := pairing_sameAccess
  sameCore := .refl Frame.SameAccess.refl
  sameBus _ := trivial
  boardsSimulated := (Board.pairing_sameWork settings guardTime).simulation
  boardsTended := Board.tended_sameWork settings guardTime
  transfers := transfers_of_pairing pairing_sameAccess (Board.pairing_sameWork settings guardTime)

namespace SameCourse

variable {settings : Settings} {guardTime : UInt64} {first second : Machine ScriptedCore}

theorem together (same : SameCourse settings guardTime first second) :
    Together (ScriptedCore.Twins Frame.SameAccess [] []) Board.SameWork (fun _ _ => True) settings
      { settings with irqGuardHalfCycles := guardTime } first second :=
  { same with bus := trivial }

theorem of_together
    (together : Together (ScriptedCore.Twins Frame.SameAccess [] []) Board.SameWork
      (fun _ _ => True) settings { settings with irqGuardHalfCycles := guardTime } first second) :
    SameCourse settings guardTime first second :=
  { together with }

/-- Machines on the same course answer the same. -/
theorem respondAll_agree (same : SameCourse settings guardTime first second)
    {inputs otherInputs : List (Action ScriptedCore)}
    (paired : List.Forall₂ Action.SameInput inputs otherInputs) :
    Agree (fun x y => x.1 = y.1 ∧ SameCourse settings guardTime x.2 y.2)
      (first.respondAll inputs) (second.respondAll otherInputs) := by
  have simulation := simulation_sameWork settings guardTime
  apply Comparison.agree.imp (respondAll_together _ paired same.together)
  · rintro answered otherAnswered ⟨sameAnswers, together⟩
    exact ⟨sameAnswers, of_together together⟩
  · intro first second action other together input
    cases input with
    | refl action => exact simulation.respond together action
    | setTable table other =>
        exact Agree.ok ⟨rfl, { together with board := { together.board with } }⟩
    | exchangeCore twins => exact Agree.ok ⟨rfl, { together with core := twins }⟩

/-- Young machines on the same course answer every row of inputs, and stay on it. -/
theorem respondAll {bound age : Nat} {inputs otherInputs : List (Action ScriptedCore)}
    (same : SameCourse settings guardTime first second)
    (aged : first.board.Aged bound age) (otherAged : second.board.Aged bound age)
    (paired : List.Forall₂ Action.SameInput inputs otherInputs)
    (fits : ∀ input ∈ inputs, input.Fits) (otherFits : ∀ input ∈ otherInputs, input.Fits)
    (room : bound + 99 * ((inputs.map (Action.steps settings)).sum + inputs.length) < 2 ^ 62)
    (young : age + (inputs.map (Action.steps settings)).sum < 2 ^ 32) :
    ∃ answers after otherAfter, first.respondAll inputs = .ok (answers, after) ∧
      second.respondAll otherInputs = .ok (answers, otherAfter) ∧
      SameCourse settings guardTime after otherAfter := by
  have steps : otherInputs.map (Action.steps second.settings) =
      inputs.map (Action.steps settings) := by
    rw [same.other, ← List.forall₂_eq_eq_eq, List.forall₂_map_left_iff, List.forall₂_map_right_iff]
    exact paired.flip.imp fun _ _ input => input.steps_eq settings guardTime
  obtain ⟨⟨answers, after⟩, responded⟩ := respondAll_aged aged fits
    (by rwa [same.settings]) (by rwa [same.settings])
  obtain ⟨⟨otherAnswers, otherAfter⟩, otherResponded⟩ := respondAll_aged otherAged otherFits
    (by rwa [steps, ← paired.length_eq]) (by rwa [steps])
  obtain ⟨sameAnswers, afterwards⟩ :=
    (same.respondAll_agree paired).of_ok _ _ responded otherResponded
  cases sameAnswers
  exact ⟨answers, after, otherAfter, responded, otherResponded, afterwards⟩

end SameCourse

theorem sameCourse_start {core other : ScriptedCore}
    (cores : core.Twins Frame.SameAccess [] [] other) (settings : Settings) (guardTime : UInt64) :
    SameCourse settings guardTime (start core settings)
      (start other { settings with irqGuardHalfCycles := guardTime }) :=
  .of_together ((simulation_sameWork settings guardTime).start cores
    (Board.sameWork_initial settings guardTime))

/-- The audit never feeds back. Machines with settings that differ in the guard time
only, with cores that show the same accesses, and with the same inputs apart from their
cycle tables give the same answers for as long as the steps can be counted with 32 bits.
They are then at the same time, with the same memories, registers, screen, clocks and
incidents, bank hits apart; they have halted together or not at all, and their cores
have read the same. -/
theorem audit_never_feeds_back {core other : ScriptedCore}
    (cores : core.Twins Frame.SameAccess [] [] other) (settings : Settings) (guardTime : UInt64)
    {inputs otherInputs : List (Action ScriptedCore)}
    (same : List.Forall₂ Action.SameInput inputs otherInputs)
    (fits : ∀ input ∈ inputs, input.Fits) (otherFits : ∀ input ∈ otherInputs, input.Fits)
    (few : inputs.length < 2 ^ 55)
    (short : (inputs.map (Action.steps settings)).sum < 2 ^ 32) :
    ∃ answers first second,
      (start core settings).respondAll inputs = .ok (answers, first) ∧
      (start other { settings with irqGuardHalfCycles := guardTime }).respondAll otherInputs =
        .ok (answers, second) ∧
      first.board.SameWork second.board ∧ first.haltedAt = second.haltedAt ∧
      first.core.reads = second.core.reads := by
  have aged (core : ScriptedCore) (settings : Settings) :
      (start core settings).board.Aged 0 0 := by
    rw [start, board_holdReset]
    exact Board.aged_initial settings
  obtain ⟨answers, first, second, responded, otherResponded, together⟩ :=
    (sameCourse_start cores settings guardTime).respondAll (aged _ _) (aged _ _) same fits
      otherFits (by omega) (by omega)
  obtain ⟨recent, reads, otherReads⟩ := together.core.reads
  exact ⟨answers, first, second, responded, otherResponded, together.board, together.haltedAt,
    reads.trans otherReads.symm⟩

/-- A read with the audit's signals at rest. -/
def quietRead : List Frame :=
  [{ pins := { address := 0xA100, busStatus := .memRead } }]

/-- The same read as the last cycle of an instruction, with a fault and a code bank. -/
def noisyRead : List Frame :=
  [{ pins := { address := 0xA100, busStatus := .memRead, sync := true }
     probes := { microOp := Probes.boundaryBit, faults := .alu, codeBank := 1 } }]

/-- The quiet read and the noisy one do the same, with two cycle tables. -/
theorem audit_never_feeds_back_noisy :
    List.Forall₂ Frame.SameAccess quietRead noisyRead ∧
    ∃ answers first second,
      (start ({ script := quietRead } : ScriptedCore) {}).respondAll
          [.setTable .blank, .loadCartridge #[1, 2, 3], .run 1000, .runFrame] =
        .ok (answers, first) ∧
      (start ({ script := noisyRead } : ScriptedCore) { irqGuardHalfCycles := 7 }).respondAll
          [.setTable ⟨#[⟨4, 4⟩]⟩, .loadCartridge #[1, 2, 3], .run 1000, .runFrame] =
        .ok (answers, second) ∧
      first.board.SameWork second.board ∧ first.haltedAt = second.haltedAt ∧
      first.core.reads = second.core.reads := by
  have frames : List.Forall₂ Frame.SameAccess quietRead noisyRead :=
    .cons ⟨⟨rfl, rfl, rfl, rfl, rfl⟩, rfl, rfl, rfl⟩ .nil
  have cores : ScriptedCore.Twins Frame.SameAccess [] [] { script := quietRead }
      { script := noisyRead } :=
    ⟨frames, .refl {}, rfl, rfl, rfl, rfl, rfl, ⟨[], rfl, rfl⟩⟩
  refine ⟨frames, audit_never_feeds_back cores {} 7 ?_ ?_ ?_ ?_ ?_⟩
  · exact .cons (.setTable _ _) (.cons (.refl _) (.cons (.refl _) (.cons (.refl _) .nil)))
  · simp only [List.forall_mem_cons]
    refine ⟨?_, trivial, trivial, trivial, List.forall_mem_nil _⟩
    show (Array.replicate CycleTable.slots CycleEntry.unknown).size < hostLimit
    rw [Array.size_replicate]
    decide
  · simp only [List.forall_mem_cons]
    exact ⟨show 1 < hostLimit by decide, trivial, trivial, trivial, List.forall_mem_nil _⟩
  · decide
  · decide

end Machine

end Handheld
