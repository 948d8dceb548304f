/-
# Two machines side by side

Two machines that are related somehow take a step each, and are related in the same
way again. What has to be shown for that depends on the relation only through the
cores and the operations of the board; the order in which a step makes use of them
is the same for every relation, and is followed here once.

A *simulation* is what such a relation has to satisfy. It says how steps compare that
run into a fault: either both machines are taken to get through, or they run into the
same fault. A *pairing* is a simulation of the first kind, between machines that ask
for the same transfers on the bus.
-/

import Handheld.Proofs.Machine.Steps

namespace Handheld

open Checked

/-- The frames ask for the same transfer on the bus. -/
structure Frame.SameTransfer (first second : Frame) : Prop where
  address : first.pins.address = second.pins.address
  busStatus : first.pins.busStatus = second.pins.busStatus
  write : first.pins.write = second.pins.write
  dataOut : first.pins.dataOut = second.pins.dataOut
  pl : first.pins.pl = second.pins.pl

/-- Cores that stay related as long as their lines are driven alike, and show related
frames. -/
structure Core.Pairing {σ : Type} [Core σ] (frames : Frame → Frame → Prop)
    (cores : σ → σ → Prop) : Prop where
  setClock : ∀ {a b}, cores a b → ∀ level, cores (Core.setClock level a) (Core.setClock level b)
  setReset : ∀ {a b}, cores a b → ∀ level, cores (Core.setReset level a) (Core.setReset level b)
  setRealTimeClock : ∀ {a b}, cores a b →
    ∀ level, cores (Core.setRealTimeClock level a) (Core.setRealTimeClock level b)
  setDataIn : ∀ {a b}, cores a b → ∀ data, cores (Core.setDataIn data a) (Core.setDataIn data b)
  setKeys : ∀ {a b}, cores a b → ∀ keys, cores (Core.setKeys keys a) (Core.setKeys keys b)
  settle : ∀ {a b}, cores a b → cores (Core.settle a) (Core.settle b)
  shown : ∀ {a b}, cores a b →
    frames ⟨Core.pins a, Core.probes a⟩ ⟨Core.pins b, Core.probes b⟩
  lcdMemory : ∀ {a b : σ}, cores a b → Core.lcdMemory a = Core.lcdMemory b
  lcdContrast : ∀ {a b : σ}, cores a b → Core.lcdContrast a = Core.lcdContrast b

/-- Boards that stay related through everything a step does with them, each with its
own settings and at related frames. -/
structure Board.Pairing (frames : Frame → Frame → Prop) (boards : Board → Board → Prop)
    (settings other : Settings) : Prop where
  sameTransfer : ∀ {f g}, frames f g → f.SameTransfer g
  frameSource : settings.frameSource = other.frameSource
  resetHalfCycles : settings.resetHalfCycles = other.resetHalfCycles
  ticks : ∀ {a b}, boards a b → a.ticks = b.ticks
  halfCycle : ∀ {a b}, boards a b →
    Agree (fun x y => x.1 = y.1 ∧ boards x.2 y.2) a.halfCycle b.halfCycle
  latchEdges : ∀ {a b f g}, boards a b → frames f g →
    Agree (fun x y => x.1 = y.1 ∧ boards x.2 y.2) (a.latchEdges f.probes) (b.latchEdges g.probes)
  present : ∀ {a b}, boards a b → ∀ memory contrast,
    Agree (fun x y => boards x.2 y.2) (a.present memory contrast) (b.present memory contrast)
  tickRegisters : ∀ {a b}, boards a b →
    Agree (fun x y => x.1 = y.1 ∧ boards x.2 y.2) (a.tickRegisters settings)
      (b.tickRegisters other)
  collectComplaints : ∀ {a b f g}, boards a b → frames f g →
    Agree (fun x y => Machine.overflowOf x.1 = Machine.overflowOf y.1 ∧
        boards { a with audit := x.2 } { b with audit := y.2 })
      (a.audit.collectComplaints f.pins f.probes) (b.audit.collectComplaints g.pins g.probes)
  observe : ∀ {a b f g}, boards a b → frames f g → ∀ timestamp,
    Agree (fun x y => boards { a with audit := x.2 } { b with audit := y.2 })
      (a.audit.observe f.pins f.probes timestamp) (b.audit.observe g.pins g.probes timestamp)
  enterInterrupt : ∀ {a b f g}, boards a b → frames f g → ∀ timestamp,
    boards
      { a with audit :=
          (a.audit.enterInterrupt f.pins timestamp settings.irqGuardHalfCycles).2 }
      { b with audit := (b.audit.enterInterrupt g.pins timestamp other.irqGuardHalfCycles).2 }
  fetch : ∀ {a b f g}, boards a b → frames f g → ∀ address,
    Agree (fun x y => x.1.data = y.1.data ∧ boards x.2 y.2)
      (a.fetch (.read address) f.probes.codeBank) (b.fetch (.read address) g.probes.codeBank)
  store : ∀ {a b}, boards a b → ∀ bus,
    Agree (fun x y => boards x.2 y.2) (a.store bus) (b.store bus)
  countCycle : ∀ {a b f g}, boards a b → frames f g →
    boards { a with audit := a.audit.countCycle f.pins f.probes }
      { b with audit := b.audit.countCycle g.pins g.probes }

/-- Equal boards with equal settings are paired. -/
theorem Board.pairing_eq (settings : Settings) : Board.Pairing Eq Eq settings settings where
  sameTransfer := by
    rintro f _ rfl
    exact ⟨rfl, rfl, rfl, rfl, rfl⟩
  frameSource := rfl
  resetHalfCycles := rfl
  ticks := by
    rintro a _ rfl
    rfl
  halfCycle := by
    rintro a _ rfl
    exact Agree.refl (fun _ => ⟨rfl, rfl⟩) _
  latchEdges := by
    rintro a _ f _ rfl rfl
    exact Agree.refl (fun _ => ⟨rfl, rfl⟩) _
  present := by
    rintro a _ rfl memory contrast
    exact Agree.refl (by intro; rfl) _
  tickRegisters := by
    rintro a _ rfl
    exact Agree.refl (fun _ => ⟨rfl, rfl⟩) _
  collectComplaints := by
    rintro a _ f _ rfl rfl
    exact Agree.refl (fun _ => ⟨rfl, rfl⟩) _
  observe := by
    rintro a _ f _ rfl rfl timestamp
    exact Agree.refl (by intro; rfl) _
  enterInterrupt := by
    rintro a _ f _ rfl rfl timestamp
    rfl
  fetch := by
    rintro a _ f _ rfl rfl address
    exact Agree.refl (fun _ => ⟨rfl, rfl⟩) _
  store := by
    rintro a _ rfl bus
    exact Agree.refl (by intro; rfl) _
  countCycle := by
    rintro a _ f _ rfl rfl
    rfl

namespace Machine

variable {σ : Type} [Core σ] {frames : Frame → Frame → Prop} {cores : σ → σ → Prop}
  {boards : Board → Board → Prop} {settings other : Settings}

/-- The machines are related part by part, and both or neither are halted. -/
structure Paired (cores : σ → σ → Prop) (boards : Board → Board → Prop)
    (settings other : Settings) (first second : Machine σ) : Prop where
  core : cores first.core second.core
  board : boards first.board second.board
  haltedAt : first.haltedAt = second.haltedAt
  settings : first.settings = settings
  other : second.settings = other

/-! ## Simulations -/

/-- The machines are paired, and remember related transactions. -/
structure Linked (cores : σ → σ → Prop) (boards : Board → Board → Prop)
    (buses : Transaction → Transaction → Prop) (settings other : Settings)
    (first second : Machine σ) : Prop extends Paired cores boards settings other first second where
  bus : buses first.bus second.bus

end Machine

/-- Boards that stay related through everything a step does with them but its transaction.
The relation may depend on the half cycles that have passed in the step: it is `boards 0`
between steps, and `boards 2` when the core's frame has been sampled. -/
structure Board.Simulation (comparison : Comparison Fault) (frames : Frame → Frame → Prop)
    (boards : Nat → Board → Board → Prop) (settings other : Settings) : Prop where
  frameSource : settings.frameSource = other.frameSource
  resetHalfCycles : settings.resetHalfCycles = other.resetHalfCycles
  ticks : ∀ {passed a b}, boards passed a b → a.ticks = b.ticks
  halfCycle : ∀ {passed a b}, boards passed a b →
    comparison.Holds (fun x y => x.1 = y.1 ∧ boards (passed + 1) x.2 y.2) a.halfCycle b.halfCycle
  latchEdges : ∀ {a b f g}, boards 2 a b → frames f g →
    comparison.Holds (fun x y => x.1 = y.1 ∧ boards 2 x.2 y.2) (a.latchEdges f.probes)
      (b.latchEdges g.probes)
  present : ∀ {a b}, boards 2 a b → ∀ memory contrast,
    comparison.Holds (fun x y => boards 2 x.2 y.2) (a.present memory contrast)
      (b.present memory contrast)
  tickRegisters : ∀ {a b}, boards 2 a b →
    comparison.Holds (fun x y => x.1 = y.1 ∧ boards 2 x.2 y.2) (a.tickRegisters settings)
      (b.tickRegisters other)
  collectComplaints : ∀ {a b f g}, boards 2 a b → frames f g →
    comparison.Holds (fun x y => Machine.overflowOf x.1 = Machine.overflowOf y.1 ∧
        boards 2 { a with audit := x.2 } { b with audit := y.2 })
      (a.audit.collectComplaints f.pins f.probes) (b.audit.collectComplaints g.pins g.probes)
  observe : ∀ {a b f g}, boards 2 a b → frames f g → ∀ timestamp,
    comparison.Holds (fun x y => boards 2 { a with audit := x.2 } { b with audit := y.2 })
      (a.audit.observe f.pins f.probes timestamp) (b.audit.observe g.pins g.probes timestamp)
  enterInterrupt : ∀ {a b f g}, boards 2 a b → frames f g → ∀ timestamp,
    boards 2
      { a with audit :=
          (a.audit.enterInterrupt f.pins timestamp settings.irqGuardHalfCycles).2 }
      { b with audit := (b.audit.enterInterrupt g.pins timestamp other.irqGuardHalfCycles).2 }
  countCycle : ∀ {a b f g}, boards 0 a b → frames f g →
    boards 0 { a with audit := a.audit.countCycle f.pins f.probes }
      { b with audit := b.audit.countCycle g.pins g.probes }
  rest : ∀ {a b}, boards 2 a b → boards 0 a b

/-- A pairing is a simulation, the bus apart. -/
theorem Board.Pairing.simulation {frames : Frame → Frame → Prop} {boards : Board → Board → Prop}
    {settings other : Settings} (pairing : Board.Pairing frames boards settings other) :
    Board.Simulation .agree frames (fun _ => boards) settings other where
  frameSource := pairing.frameSource
  resetHalfCycles := pairing.resetHalfCycles
  ticks := pairing.ticks
  halfCycle := pairing.halfCycle
  latchEdges := pairing.latchEdges
  present := pairing.present
  tickRegisters := pairing.tickRegisters
  collectComplaints := pairing.collectComplaints
  observe := pairing.observe
  enterInterrupt := pairing.enterInterrupt
  countCycle := pairing.countCycle
  rest := id

namespace Machine

/-- The transactions of linked machines leave them linked, between two steps again. -/
def Transfers {σ : Type} [Core σ] (comparison : Comparison Fault)
    (frames : Frame → Frame → Prop) (cores : σ → σ → Prop) (boards : Nat → Board → Board → Prop)
    (buses : Transaction → Transaction → Prop) (settings other : Settings) : Prop :=
  ∀ {first second : Machine σ} {sampled otherSampled : Frame},
    Linked cores (boards 2) buses settings other first second → frames sampled otherSampled →
      comparison.Holds (fun x y => Linked cores (boards 0) buses settings other x.2 y.2)
        (first.transfer sampled) (second.transfer otherSampled)

variable {σ : Type} [Core σ] {comparison : Comparison Fault} {frames : Frame → Frame → Prop}
  {cores : σ → σ → Prop} {boards : Nat → Board → Board → Prop}
  {buses : Transaction → Transaction → Prop} {settings other : Settings}
  {first second : Machine σ}

section

variable (corePairing : Core.Pairing frames cores)
include corePairing

/-- Machines that ask for the same transfer, and whose boards serve it alike, stay
linked. -/
theorem transfer_linked {before after : Board → Board → Prop} (reflexive : ∀ bus, buses bus bus)
    (linked : Linked cores before buses settings other first second)
    {sampled otherSampled : Frame} (same : sampled.SameTransfer otherSampled)
    (rest : after first.board second.board)
    (fetch : ∀ address,
      comparison.Holds (fun x y => x.1.data = y.1.data ∧ after x.2 y.2)
        (first.board.fetch (.read address) sampled.probes.codeBank)
        (second.board.fetch (.read address) otherSampled.probes.codeBank))
    (store : ∀ bus, comparison.Holds (fun x y => after x.2 y.2) (first.board.store bus)
      (second.board.store bus)) :
    comparison.Holds (fun x y => Linked cores after buses settings other x.2 y.2)
      (first.transfer sampled) (second.transfer otherSampled) := by
  have idle : Linked cores after buses settings other first second :=
    { linked with board := rest }
  unfold transfer
  dsimp only
  rw [← same.busStatus, ← same.pl, ← same.write, ← same.address, ← same.dataOut]
  cases sampled.pins.busStatus with
  | memRead =>
      dsimp only
      split
      · exact comparison.ok idle
      · apply comparison.bind (fetch _)
        rintro ⟨fetch, board⟩ ⟨otherFetch, otherBoard⟩ ⟨sameData, together⟩
        dsimp only at sameData ⊢
        rw [← sameData]
        exact comparison.ok
          { linked with
            core := corePairing.settle (corePairing.setDataIn linked.core fetch.data)
            board := together
            bus := reflexive _ }
  | memWrite =>
      dsimp only
      split
      · apply comparison.bind (store _)
        intro stored otherStored together
        exact comparison.ok { linked with board := together, bus := reflexive _ }
      · exact comparison.ok idle
  | idle => exact comparison.ok idle
  | irqRead => exact comparison.ok idle

variable (simulation : Board.Simulation comparison frames boards settings other)
include simulation

theorem halfCycle_linked {passed : Nat}
    (linked : Linked cores (boards passed) buses settings other first second) (level : Bool) :
    comparison.Holds (Linked cores (boards (passed + 1)) buses settings other)
      (first.halfCycle level) (second.halfCycle level) := by
  refine comparison.bind (simulation.halfCycle linked.board) ?_
  rintro ⟨toggled, board⟩ ⟨_, otherBoard⟩ ⟨rfl, together⟩
  have driven := corePairing.settle (corePairing.setClock linked.core level)
  apply comparison.ok
  cases toggled with
  | none => exact { linked with core := driven, board := together }
  | some realTime =>
      exact
        { linked with
          core := corePairing.settle (corePairing.setRealTimeClock driven realTime)
          board := together }

theorem capture_simulated {core otherCore : σ} {board otherBoard : Board}
    (coresPaired : cores core otherCore) (boardsPaired : boards 2 board otherBoard) (due : Bool) :
    comparison.Holds (fun x y => boards 2 x.2 y.2) (capture core board due)
      (capture otherCore otherBoard due) := by
  unfold capture
  cases due with
  | false => exact comparison.ok boardsPaired
  | true =>
      rw [← corePairing.lcdMemory coresPaired, ← corePairing.lcdContrast coresPaired]
      refine comparison.bind (simulation.present boardsPaired _ _) ?_
      intro shown otherShown together
      exact comparison.ok together

/-- The reports of related housekeeping show related frames, at one time, and the same
stack pointer if any. -/
theorem housekeep_simulated {core otherCore : σ} {board otherBoard : Board}
    {sampled otherSampled : Frame} (coresPaired : cores core otherCore)
    (boardsPaired : boards 2 board otherBoard) (framesPaired : frames sampled otherSampled) :
    comparison.Holds (fun x y => x.1.timestamp = y.1.timestamp ∧ frames x.1.sampled y.1.sampled ∧
        overflowOf x.1.complaints = overflowOf y.1.complaints ∧ boards 2 x.2 y.2)
      (housekeep core settings sampled board)
      (housekeep otherCore other otherSampled otherBoard) := by
  have time := simulation.ticks boardsPaired
  refine comparison.bind (simulation.latchEdges boardsPaired framesPaired) ?_
  rintro ⟨edges, latched⟩ ⟨_, otherLatched⟩ ⟨rfl, latchedPaired⟩
  dsimp only
  rw [← simulation.frameSource]
  refine comparison.bind (capture_simulated corePairing simulation coresPaired latchedPaired _) ?_
  intro rendered otherRendered renderedPaired
  refine comparison.bind (simulation.tickRegisters renderedPaired) ?_
  rintro ⟨refresh, ticked⟩ ⟨_, otherTicked⟩ ⟨rfl, tickedPaired⟩
  refine comparison.bind (capture_simulated corePairing simulation coresPaired tickedPaired _) ?_
  intro refreshed otherRefreshed refreshedPaired
  refine comparison.bind (simulation.collectComplaints refreshedPaired framesPaired) ?_
  rintro ⟨complaints, audit⟩ ⟨otherComplaints, otherAudit⟩ ⟨sameOverflow, audited⟩
  exact comparison.ok ⟨time, framesPaired, sameOverflow, audited⟩

variable (transfers : Transfers comparison frames cores boards buses settings other)
include transfers

theorem finishStep_linked {report otherReport : StepReport}
    (linked : Linked cores (boards 2) buses settings other first second)
    (sameTime : report.timestamp = otherReport.timestamp)
    (framesPaired : frames report.sampled otherReport.sampled) :
    comparison.Holds (fun x y => Linked cores (boards 0) buses settings other x.2 y.2)
      (first.finishStep report) (second.finishStep otherReport) := by
  obtain ⟨core, board, own, bus, running, halted⟩ := first
  obtain ⟨otherCore, otherBoard, others, otherBus, otherRunning, otherHalted⟩ := second
  obtain ⟨⟨coresPaired, boardsPaired, sameHalt, sameSettings, otherSettings⟩, buses⟩ := linked
  dsimp only at coresPaired boardsPaired sameHalt sameSettings otherSettings buses
  subst sameSettings otherSettings
  unfold finishStep
  dsimp only
  rw [← sameTime, ← simulation.resetHalfCycles]
  refine comparison.bind (simulation.observe boardsPaired framesPaired _) ?_
  intro observed otherObserved observedPaired
  have entered := simulation.enterInterrupt observedPaired framesPaired report.timestamp
  have released : cores
      (if own.resetHalfCycles ≤ report.timestamp then Core.setReset false core else core)
      (if own.resetHalfCycles ≤ report.timestamp then Core.setReset false otherCore
        else otherCore) := by
    split
    · exact corePairing.setReset coresPaired false
    · exact coresPaired
  refine comparison.bind (transfers ⟨⟨released, entered, sameHalt, rfl, rfl⟩, buses⟩ framesPaired) ?_
  intro moved otherMoved movedLinked
  exact comparison.ok
    { movedLinked with board := simulation.countCycle movedLinked.board framesPaired }

/-- Linked machines take comparable steps, and overflow their stacks together. -/
theorem step_linked (linked : Linked cores (boards 0) buses settings other first second) :
    comparison.Holds (fun x y => x.overflow = y.overflow ∧
        Linked cores (boards 0) buses settings other x.machine y.machine)
      first.step second.step := by
  cases halted : first.haltedAt with
  | some stackPointer =>
      rw [step_of_halted halted, step_of_halted (linked.haltedAt.symm.trans halted),
        simulation.ticks linked.board]
      exact comparison.ok ⟨rfl, linked⟩
  | none =>
      unfold step
      rw [halted, linked.haltedAt.symm.trans halted]
      refine comparison.bind (halfCycle_linked corePairing simulation linked true) ?_
      intro high otherHigh highLinked
      refine comparison.bind (halfCycle_linked corePairing simulation highLinked false) ?_
      intro low otherLow lowLinked
      have shown := corePairing.shown lowLinked.core
      dsimp only
      rw [lowLinked.settings, lowLinked.other]
      refine comparison.bind
        (housekeep_simulated corePairing simulation lowLinked.core lowLinked.board shown) ?_
      rintro ⟨report, board⟩ ⟨otherReport, otherBoard⟩
        ⟨sameTime, framesPaired, sameOverflow, together⟩
      dsimp only at sameTime framesPaired sameOverflow together ⊢
      rw [← sameOverflow, ← sameTime]
      cases overflowOf report.complaints with
      | some stackPointer =>
          exact comparison.ok ⟨rfl, ⟨⟨lowLinked.core, simulation.rest together, rfl, rfl, rfl⟩,
            lowLinked.bus⟩⟩
      | none =>
          have staged : Linked cores (boards 2) buses settings other { low with board, settings }
              { otherLow with board := otherBoard, settings := other } :=
            ⟨⟨lowLinked.core, together, lowLinked.haltedAt, rfl, rfl⟩, lowLinked.bus⟩
          refine comparison.bind
            (finishStep_linked corePairing simulation transfers staged sameTime framesPaired) ?_
          intro final otherFinal finalLinked
          exact comparison.ok ⟨rfl, finalLinked⟩

/-- Linked machines run side by side, for any number of steps. -/
theorem run_linked (linked : Linked cores (boards 0) buses settings other first second) (n : Nat) :
    comparison.Holds (fun x y => x.1 = y.1 ∧ Linked cores (boards 0) buses settings other x.2 y.2)
      (first.run n) (second.run n) := by
  induction n generalizing first second with
  | zero => exact comparison.ok ⟨rfl, linked⟩
  | succ n ih =>
      rw [run_succ, run_succ]
      refine comparison.bind (step_linked corePairing simulation transfers linked) ?_
      rintro ⟨report, overflow, after⟩ ⟨otherReport, _, otherAfter⟩ ⟨rfl, together⟩
      cases overflow with
      | some overflow => exact comparison.ok ⟨rfl, together⟩
      | none => exact ih together

end

section

variable {boards : Board → Board → Prop} (corePairing : Core.Pairing frames cores)
  (boardPairing : Board.Pairing frames boards settings other)
include corePairing boardPairing

/-- What paired machines remember of their buses makes no difference. -/
theorem transfers_of_pairing :
    Transfers .agree frames cores (fun _ => boards) (fun _ _ => True) settings other := by
  intro first second sampled otherSampled linked framesPaired
  apply transfer_linked corePairing (fun _ => trivial) linked
    (boardPairing.sameTransfer framesPaired) linked.board
  · exact boardPairing.fetch linked.board framesPaired
  · exact boardPairing.store linked.board

/-- Related machines run alike, for any number of steps. -/
theorem run_agree (paired : Paired cores boards settings other first second) (n : Nat) :
    Agree (fun x y => x.1 = y.1 ∧ Paired cores boards settings other x.2 y.2)
      (first.run n) (second.run n) := by
  have linked : Linked cores boards (fun _ _ => True) settings other first second :=
    { paired with bus := trivial }
  refine Comparison.agree.imp (run_linked corePairing boardPairing.simulation
    (transfers_of_pairing corePairing boardPairing) linked n) ?_
  rintro ran otherRan ⟨sameOverflow, together⟩
  exact ⟨sameOverflow, together.toPaired⟩

end

end Machine

end Handheld
