/-
# Scripted cores side by side

Two scripted cores with related scripts go through them together. They are *in step*
whatever they have recorded. *Twins* also record the same, although their records may
have begun differently, before they were paired.

Key lines and the count of real-time edges are left out. A scripted core notes them
and shows nothing of them.
-/

import Mathlib.Data.List.Forall2
import Handheld.Core.Scripted
import Handheld.Proofs.Machine.Pairs

namespace Handheld

open Checked

namespace ScriptedCore

/-- The cores are at related places of related scripts, with their lines at the same
levels. -/
structure InStep (frames : Frame → Frame → Prop) (first second : ScriptedCore) : Prop where
  script : List.Forall₂ frames first.script second.script
  current : frames first.current second.current
  clock : first.clock = second.clock
  reset : first.reset = second.reset
  realTimeClock : first.realTimeClock = second.realTimeClock
  lcd : first.lcd = second.lcd
  contrast : first.contrast = second.contrast

/-- The clock moves a core along its script and does nothing else. -/
theorem setClock_eq (core : ScriptedCore) (level : Bool) :
    ∃ script current, core.setClock level = { core with script, current, clock := level } := by
  unfold setClock
  split
  · split
    · exact ⟨_, _, rfl⟩
    · exact ⟨_, _, rfl⟩
  · exact ⟨_, _, rfl⟩

namespace InStep

variable {frames : Frame → Frame → Prop} {first second : ScriptedCore}
  (inStep : InStep frames first second)
include inStep

/-- A rising edge takes a frame from both scripts, or from neither. -/
theorem setClock (idle : frames {} {}) (level : Bool) :
    InStep frames (first.setClock level) (second.setClock level) := by
  unfold ScriptedCore.setClock
  rw [← inStep.clock, ← inStep.reset]
  split
  · have scripts := inStep.script
    generalize first.script = script at scripts ⊢
    generalize second.script = otherScript at scripts ⊢
    cases scripts with
    | nil => exact { inStep with script := .nil, current := idle, clock := rfl, reset := rfl }
    | cons shown rest =>
        exact { inStep with script := rest, current := shown, clock := rfl, reset := rfl }
  · exact { inStep with clock := rfl, reset := rfl }

theorem setReset (idle : frames {} {}) (level : Bool) :
    InStep frames (first.setReset level) (second.setReset level) := by
  refine { inStep with reset := rfl, current := ?_ }
  cases level with
  | true => exact idle
  | false => exact inStep.current

end InStep

end ScriptedCore

/-- The cores are at related places of related scripts, with their lines at the same
levels, and have been served the same since their records were `past` and
`otherPast`. -/
structure ScriptedCore.Twins (frames : Frame → Frame → Prop)
    (past otherPast : List (UInt32 × UInt8)) (first second : ScriptedCore) : Prop where
  script : List.Forall₂ frames first.script second.script
  current : frames first.current second.current
  clock : first.clock = second.clock
  reset : first.reset = second.reset
  realTimeClock : first.realTimeClock = second.realTimeClock
  lcd : first.lcd = second.lcd
  contrast : first.contrast = second.contrast
  served : ∃ recent, first.served = recent ++ past ∧ second.served = recent ++ otherPast

namespace ScriptedCore.Twins

theorem refl {frames : Frame → Frame → Prop} (reflexive : ∀ frame, frames frame frame)
    (core : ScriptedCore) : Twins frames [] [] core core where
  script := List.forall₂_same.mpr fun frame _ => reflexive frame
  current := reflexive core.current
  clock := rfl
  reset := rfl
  realTimeClock := rfl
  lcd := rfl
  contrast := rfl
  served := ⟨core.served, (List.append_nil _).symm, (List.append_nil _).symm⟩

variable {frames : Frame → Frame → Prop} {past otherPast : List (UInt32 × UInt8)}
  {first second : ScriptedCore} (twins : Twins frames past otherPast first second)
include twins

theorem inStep : InStep frames first second :=
  { twins with }

theorem setClock (idle : frames {} {}) (level : Bool) :
    Twins frames past otherPast (first.setClock level) (second.setClock level) := by
  have moved := twins.inStep.setClock idle level
  obtain ⟨script, current, same⟩ := first.setClock_eq level
  obtain ⟨otherScript, otherCurrent, otherSame⟩ := second.setClock_eq level
  rw [same, otherSame] at moved ⊢
  exact { moved with served := twins.served }

theorem setReset (idle : frames {} {}) (level : Bool) :
    Twins frames past otherPast (first.setReset level) (second.setReset level) :=
  { twins.inStep.setReset idle level with served := twins.served }

theorem setDataIn (sameAddress : first.current.pins.address = second.current.pins.address)
    (data : UInt8) :
    Twins frames past otherPast (first.setDataIn data) (second.setDataIn data) := by
  obtain ⟨recent, served, otherServed⟩ := twins.served
  refine { twins with served := ⟨(first.current.pins.address, data) :: recent, ?_, ?_⟩ }
  · show _ :: first.served = _
    rw [served, List.cons_append]
  · show _ :: second.served = _
    rw [otherServed, sameAddress, List.cons_append]

/-- Since the records parted, the same has been read. -/
theorem reads : ∃ recent, first.reads = past.reverse ++ recent ∧
    second.reads = otherPast.reverse ++ recent := by
  obtain ⟨recent, served, otherServed⟩ := twins.served
  refine ⟨recent.reverse, ?_, ?_⟩
  · rw [ScriptedCore.reads, served, List.reverse_append]
  · rw [ScriptedCore.reads, otherServed, List.reverse_append]

omit twins in
/-- Cores at related frames are paired, as long as the frames read at the same
addresses. -/
theorem pairing (idle : frames {} {})
    (sameAddress : ∀ {f g}, frames f g → f.pins.address = g.pins.address) :
    Core.Pairing frames (Twins frames past otherPast) where
  setClock twins level := twins.setClock idle level
  setReset twins level := twins.setReset idle level
  setRealTimeClock twins _ := { twins with realTimeClock := rfl }
  setDataIn twins data := twins.setDataIn (sameAddress twins.current) data
  setKeys twins _ := { twins with }
  settle twins := twins
  shown twins := twins.current
  lcdMemory twins := twins.lcd
  lcdContrast twins := twins.contrast

end ScriptedCore.Twins

end Handheld
