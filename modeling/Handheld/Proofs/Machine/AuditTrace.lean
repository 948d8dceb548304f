/-
# The audit of a whole run

From power-on a machine with any core steps along a row of sampled frames, and
its audit follows that trace: the executed opcodes, the discrepancies of every
opcode and the boundary reported by every step are those that the trace defines
without reference to any state of the machine.

The run may be of any length. That every step succeeded is all that is asked, so
nothing is said here about a machine that has overflowed its stack.
-/

import Handheld.Core.Scripted
import Handheld.Machine.Run
import Handheld.Proofs.Audit.Trace
import Handheld.Proofs.Machine.Steps

namespace Handheld

open Checked

/-- The trace that a row of reports shows. -/
def Trace.ofReports (guardTime : UInt64) (table : CycleTable) (reports : List StepReport) :
    Trace where
  frames
    | 0 => {}
    | i + 1 => (reports[i]?.map StepReport.sampled).getD {}
  guardTime := guardTime
  table := table

namespace Machine

variable {σ : Type} [Core σ]

/-- The machine has not stepped since power-on. Images may have been loaded, a
cycle table chosen and keys pressed. -/
inductive PoweredOn : CycleTable → Machine σ → Prop
  | start (core : σ) (settings : Settings) : PoweredOn .blank (start core settings)
  | reset (machine : Machine σ) : PoweredOn machine.board.audit.table machine.reset
  | setTable {old : CycleTable} {machine : Machine σ} (table : CycleTable) :
      PoweredOn old machine → PoweredOn table (machine.setTable table)
  | loadBios {table : CycleTable} {machine after : Machine σ} {image : Array UInt8} :
      PoweredOn table machine → machine.loadBios image = .ok after → PoweredOn table after
  | loadCartridge {table : CycleTable} {machine after : Machine σ} {image : Array UInt8} :
      PoweredOn table machine → machine.loadCartridge image = .ok after → PoweredOn table after
  | setKeys {table : CycleTable} {machine : Machine σ} (keys : Keys) :
      PoweredOn table machine → PoweredOn table (machine.setKeys keys)

variable {table : CycleTable} {machine after : Machine σ} {report : StepReport}
  {reports : List StepReport}

/-- At power-on the clock is at zero and the books of the audit are empty. -/
theorem PoweredOn.audit (poweredOn : PoweredOn table machine) :
    machine.board.ticks = 0 ∧
      ∃ stackLimit, machine.board.audit = .initial table stackLimit := by
  induction poweredOn with
  | start core settings =>
      rw [Machine.start, board_holdReset]
      exact ⟨rfl, _, rfl⟩
  | reset machine =>
      rw [Machine.reset, board_holdReset]
      exact ⟨rfl, _, rfl⟩
  | setTable table _ ih =>
      obtain ⟨ticks, stackLimit, audit⟩ := ih
      refine ⟨ticks, stackLimit, ?_⟩
      rw [Machine.setTable, Board.setTable, audit]
      rfl
  | loadBios _ loaded ih =>
      obtain ⟨bios, -, same⟩ := bind_eq_ok.mp loaded
      cases same
      exact ih
  | loadCartridge _ loaded ih =>
      obtain ⟨cartridge, -, same⟩ := bind_eq_ok.mp loaded
      cases same
      exact ih
  | setKeys keys _ ih =>
      rw [board_setKeys]
      exact ih

omit [Core σ] in
/-- A step of the machine takes its audit one step along the trace. -/
theorem AuditStep.follows {trace : Trace} {k : Nat} (stepped : AuditStep machine report after)
    (guard : trace.guardTime = machine.settings.irqGuardHalfCycles)
    (frame : report.sampled = trace.frames (k + 1))
    (clock : machine.board.ticks.toNat = 2 * k)
    (follows : trace.Follows k machine.board.audit) :
    report.timestamp.toNat = 2 * (k + 1) ∧ report.boundary = trace.boundary (k + 1) ∧
      trace.Follows (k + 1) after.board.audit := by
  obtain ⟨complaints, observed, observing, audit⟩ := stepped.audit
  have time : report.timestamp.toNat = 2 * (k + 1) := by
    rw [stepped.timestamp, stepped.ticks, clock]
    omega
  -- Complaints are counted before, and the trace says nothing about them.
  have uncounted : trace.Follows k { machine.board.audit with complaints } :=
    { follows with books := { follows.books with } }
  rw [frame] at observing
  rw [audit, frame, ← guard]
  exact ⟨time, (uncounted.observe time observing).1, uncounted.step time observing⟩

/-- Along a row of steps every report is the one of the trace, and at its end the
audit has followed the trace. -/
theorem Steps.follows {trace : Trace} {k : Nat} (steps : Steps machine reports after)
    (guard : trace.guardTime = machine.settings.irqGuardHalfCycles)
    (frames : ∀ i report, reports[i]? = some report → report.sampled = trace.frames (k + i + 1))
    (clock : machine.board.ticks.toNat = 2 * k)
    (follows : trace.Follows k machine.board.audit) :
    (∀ i report, reports[i]? = some report →
        report.timestamp.toNat = 2 * (k + i + 1) ∧ report.boundary = trace.boundary (k + i + 1)) ∧
      trace.Follows (k + reports.length) after.board.audit := by
  induction steps generalizing k with
  | nil machine =>
      refine ⟨fun i report found => ?_, follows⟩
      rw [List.getElem?_nil] at found
      cases found
  | cons stepped _ ih =>
      have step := auditStep_of_step stepped
      obtain ⟨time, boundary, next⟩ := step.follows guard (frames 0 _ rfl) clock follows
      have shift : ∀ i, k + 1 + i + 1 = k + (i + 1) + 1 := fun i => by omega
      obtain ⟨reported, final⟩ := ih (guard.trans (congrArg _ step.settings.symm))
        (fun i report found => by
          rw [shift]
          exact frames (i + 1) report found)
        (by
          rw [step.ticks, clock]
          omega)
        next
      constructor
      · intro i report found
        cases i with
        | zero =>
            rw [List.getElem?_cons_zero, Option.some.injEq] at found
            rw [← found]
            exact ⟨time, boundary⟩
        | succ i =>
            rw [← shift]
            exact reported i report found
      · rw [List.length_cons, ← Nat.add_assoc, Nat.add_right_comm]
        exact final

/-- Every run from power-on keeps the books that its trace defines. Each report
carries the boundary of the trace; an opcode is executed when it has a slot and
some audited step shows it; and the discrepancies of an opcode are its audited
steps that disagree with the table. -/
theorem audit_of_trace (poweredOn : PoweredOn table machine)
    (steps : Steps machine reports after) :
    let trace := Trace.ofReports machine.settings.irqGuardHalfCycles table reports
    let audited := trace.audited reports.length
    (∀ i report, reports[i]? = some report →
      report.timestamp.toNat = 2 * (i + 1) ∧ report.boundary = trace.boundary (i + 1)) ∧
    (∀ opcode : UInt16, after.board.audit.isExecuted opcode =
      .ok (decide (opcode.toNat < 0x300 ∧ ∃ i ∈ audited, trace.opcode i = opcode))) ∧
    after.board.audit.executedCount =
      ((audited.image trace.opcode).filter fun opcode => opcode.toNat < 0x300).card ∧
    (∀ opcode : UInt16, (after.board.audit.discrepancies.get opcode).toNat =
      (audited.filter fun i => trace.opcode i = opcode ∧ trace.Disagrees i).card) ∧
    after.board.audit.discrepancyCount = (audited.filter trace.Disagrees).card := by
  intro trace audited
  obtain ⟨ticks, stackLimit, audit⟩ := poweredOn.audit
  have frames : ∀ i report, reports[i]? = some report →
      report.sampled = trace.frames (0 + i + 1) := by
    intro i report found
    show _ = (reports[0 + i]?.map StepReport.sampled).getD {}
    rw [Nat.zero_add, found]
    rfl
  have start : trace.Follows 0 machine.board.audit := audit ▸ Trace.follows_initial stackLimit
  have clock : machine.board.ticks.toNat = 2 * 0 := by
    rw [ticks]
    rfl
  obtain ⟨reported, final⟩ := steps.follows rfl frames clock start
  rw [Nat.zero_add] at final
  refine ⟨?_, ?_, ?_, ?_, ?_⟩
  · simpa only [Nat.zero_add] using reported
  · intro opcode
    rw [final.books.isExecuted]
    simp only [Trace.executed, Finset.mem_filter, Finset.mem_image, and_comm, audited]
    rfl
  · exact final.books.executedCount
  · intro opcode
    rw [final.books.discrepancies, Trace.disagreeing, Finset.filter_filter]
    simp only [and_comm, audited]
  · exact final.books.total

/-- A cycle table that knows one opcode. -/
def shortTable : CycleTable :=
  CycleTable.blank.set 0x10 ⟨3, 0⟩

/-- A machine whose core runs opcode 0x10 too fast, enters an interrupt, closes
an instruction that is passed over, and runs opcode 0x10 again, as the table
says. -/
def interrupted : Machine ScriptedCore :=
  let script :=
    ScriptedCore.instruction 0x10 2 ++ [{ pins := { sync := true, iack := true } }] ++
      ScriptedCore.instruction 0x11 1 ++ ScriptedCore.instruction 0x10 3
  (start { script } { resetHalfCycles := 0, irqGuardHalfCycles := 0 }).setTable shortTable

/-- Of the audited steps of the interrupted machine, which show one opcode, one
disagrees with the table. -/
theorem audit_of_trace_interrupted :
    ∃ reports after, PoweredOn shortTable interrupted ∧ Steps interrupted reports after ∧
      reports.length = 11 ∧
      let trace := Trace.ofReports 0 shortTable reports
      ((trace.audited 11).filter trace.Disagrees).card = 1 ∧
      (((trace.audited 11).image trace.opcode).filter fun opcode => opcode.toNat < 0x300).card =
        1 := by
  have counts : (interrupted.run 11).map (fun (overflow, after) =>
      (overflow, after.board.audit.discrepancyCount, after.board.audit.executedCount)) =
      .ok (none, 1, 1) := by decide +kernel
  cases ran : interrupted.run 11 with
  | error fault =>
      rw [ran] at counts
      cases counts
  | ok result =>
      obtain ⟨overflow, after⟩ := result
      rw [ran] at counts
      simp only [Except.map, Except.ok.injEq, Prod.mk.injEq] at counts
      obtain ⟨rfl, one, single⟩ := counts
      obtain ⟨reports, length, steps⟩ := run_eq_ok_iff.mp ran
      have poweredOn : PoweredOn shortTable interrupted := .setTable _ (.start _ _)
      obtain ⟨-, -, executed, -, discrepancies⟩ := audit_of_trace poweredOn steps
      rw [length] at executed discrepancies
      exact ⟨reports, after, poweredOn, steps, length, discrepancies.symm.trans one,
        executed.symm.trans single⟩

end Machine

end Handheld
