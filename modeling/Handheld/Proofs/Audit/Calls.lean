/-
# What an audit reports and what it keeps

Whoever holds an audit can give it another table, let it look at frames, tell it of
interrupts, let it count cycles and collect complaints, in any order. What it has
reported along the way is on record outside of it. This module compares its books
with that record: every count is the number of reports, and an opcode that was
reported has been entered as executed, as long as no table has more slots than there
are opcodes.

The audit of a machine is used in no other way, so the audits of reachable machines
are among those considered here.
-/

import Handheld.Proofs.Audit.Ranking
import Handheld.Proofs.Audit.Trace
import Handheld.Proofs.Machine.Reachable

namespace Handheld

open Checked

/-- A table says nothing about opcodes that it has no slot for. -/
theorem CycleTable.lt_of_isKnown {table : CycleTable} {opcode : UInt16}
    (known : (table.get opcode).isKnown = true) : opcode.toNat < table.entries.size := by
  by_contra beyond
  have absent : table.get opcode = .unknown := by
    simp [get, Array.getD, beyond]
  rw [absent] at known
  cases known

namespace Audit

/-- What is done to an audit. -/
inductive Call
  | setTable (table : CycleTable)
  | observe (pins : Pins) (probes : Probes) (timestamp : UInt64)
  | enterInterrupt (pins : Pins) (timestamp guardTime : UInt64)
  | countCycle (pins : Pins) (probes : Probes)
  | collectComplaints (pins : Pins) (probes : Probes)

/-- The table that a call hands over. -/
def Call.table? : Call → Option CycleTable
  | .setTable table => some table
  | .observe .. | .enterInterrupt .. | .countCycle .. | .collectComplaints .. => none

/-- The discrepancy in what was found at the end of an instruction. -/
def reported (boundary : Option Boundary) : List Discrepancy :=
  (boundary.bind Boundary.discrepancy).toList

/-- Carry out a call, and give the discrepancies that it reports. -/
def call (audit : Audit) : Call → Checked (List Discrepancy × Audit)
  | .setTable table => .ok ([], { audit with table })
  | .observe pins probes timestamp =>
    (audit.observe pins probes timestamp).map fun (boundary, audit) => (reported boundary, audit)
  | .enterInterrupt pins timestamp guardTime =>
    .ok ([], (audit.enterInterrupt pins timestamp guardTime).2)
  | .countCycle pins probes => .ok ([], audit.countCycle pins probes)
  | .collectComplaints pins probes =>
    (audit.collectComplaints pins probes).map fun (_, audit) => ([], audit)

/-- Carry out calls, the first one first, and give all discrepancies reported. -/
def callAll : List Call → Audit → Checked (List Discrepancy × Audit)
  | [], audit => .ok ([], audit)
  | call :: calls, audit => do
    let (found, audit) ← audit.call call
    let (later, audit) ← audit.callAll calls
    .ok (found ++ later, audit)

variable {audit changed after : Audit} {found past : List Discrepancy} {tables : List CycleTable}
  {calls more : List Call}

/-- The books agree with what has been reported under these tables. -/
structure Consistent (tables : List CycleTable) (past : List Discrepancy) (audit : Audit) :
    Prop where
  table : audit.table ∈ tables
  room : audit.executed.size = (CycleTable.slots + 63) / 64
  positive : audit.discrepancies.Positive
  counts : ∀ opcode, (audit.discrepancies.get opcode).toNat =
    past.countP (fun discrepancy => discrepancy.opcode = opcode)
  total : audit.discrepancies.total = past.length
  executed : (∀ table ∈ tables, table.entries.size = CycleTable.slots) →
    ∀ discrepancy ∈ past, discrepancy.opcode.toNat < CycleTable.slots ∧
      discrepancy.opcode.toNat ∈ Bitmap.members audit.executed

theorem consistent_initial (table : CycleTable) (stackLimit : UInt16) :
    (initial table stackLimit).Consistent [table] [] where
  table := List.mem_singleton_self table
  room := Array.size_replicate
  positive := Tally.positive_empty
  counts _ := rfl
  total := rfl
  executed _ := by simp

namespace Consistent

variable (books : audit.Consistent tables past)
include books

theorem setTable (table : CycleTable) :
    { audit with table }.Consistent (tables ++ [table]) past where
  table := List.mem_append_right _ (List.mem_singleton_self table)
  room := books.room
  positive := books.positive
  counts := books.counts
  total := books.total
  executed sized := books.executed fun used member => sized used (List.mem_append_left _ member)

/-- An instruction that agrees with the table enters its opcode and is not reported. -/
theorem mark {opcode : UInt16} {executed : Array UInt64}
    (marked : audit.markExecuted opcode = .ok { audit with executed }) :
    { audit with executed }.Consistent tables past := by
  obtain ⟨_, sized, same⟩ := of_markExecuted marked
  cases same
  have grown : Bitmap.members audit.executed ⊆ Bitmap.members executed := by
    rw [members_of_markExecuted marked]
    split
    · exact Finset.subset_insert _ _
    · exact Finset.Subset.refl _
  refine { books with room := sized.trans books.room, executed := ?_ }
  intro slots discrepancy reported
  obtain ⟨slot, member⟩ := books.executed slots discrepancy reported
  exact ⟨slot, grown member⟩

/-- An instruction that disagrees is counted and reported under one opcode. The table
knows that opcode, so it has a slot and has been entered. -/
theorem count {discrepancy : Discrepancy} {executed : Array UInt64} {discrepancies : Tally}
    (marked : audit.markExecuted discrepancy.opcode = .ok { audit with executed })
    (known : (audit.table.get discrepancy.opcode).isKnown = true)
    (counted : audit.discrepancies.increment discrepancy.opcode = .ok discrepancies) :
    { audit with executed, discrepancies }.Consistent tables (past ++ [discrepancy]) := by
  have entered := books.mark marked
  obtain ⟨counts, total⟩ := Tally.of_increment counted
  refine { entered with positive := books.positive.increment counted, counts := ?_, total := ?_,
                        executed := ?_ }
  · intro opcode
    rw [counts, books.counts, List.countP_append, List.countP_singleton]
    by_cases same : opcode = discrepancy.opcode
    · simp [same]
    · simp [same, Ne.symm same]
  · rw [total, books.total, List.length_append, List.length_singleton]
  · intro slots reported member
    rcases List.mem_append.mp member with earlier | latest
    · exact entered.executed slots reported earlier
    · rw [List.mem_singleton.mp latest]
      have slot : discrepancy.opcode.toNat < CycleTable.slots := by
        rw [← slots _ books.table]
        exact CycleTable.lt_of_isKnown known
      refine ⟨slot, ?_⟩
      rw [members_of_markExecuted marked, if_pos slot]
      exact Finset.mem_insert_self _ _

theorem observe {pins : Pins} {probes : Probes} {timestamp : UInt64} {boundary : Option Boundary}
    (observed : audit.observe pins probes timestamp = .ok (boundary, changed)) :
    changed.Consistent tables (past ++ reported boundary) := by
  obtain ⟨-, rfl, rfl⟩ | ⟨-, -, rfl, rfl⟩ |
    ⟨-, -, executed, discrepancies, finding, marked, outcome, rfl, rfl⟩ := observe_cases observed
  · rwa [reported, Option.bind_none, Option.toList_none, List.append_nil]
  · rw [reported, Option.bind_none, Option.toList_none, List.append_nil]
    exact { books with }
  · rcases outcome with ⟨-, rfl, rfl⟩ | ⟨known, -, rfl, counted⟩
    · rw [reported, Option.bind_some, Option.toList_none, List.append_nil]
      exact books.mark marked
    · exact books.count marked known counted

/-- What one call keeps. Only looking at a frame touches what is compared with the record. -/
theorem call {call : Call} (called : audit.call call = .ok (found, changed)) :
    changed.Consistent (tables ++ call.table?.toList) (past ++ found) := by
  have still : audit.Consistent (tables ++ []) (past ++ []) := by
    rwa [List.append_nil, List.append_nil]
  cases call with
  | setTable table =>
      cases called
      rw [List.append_nil]
      exact books.setTable table
  | observe pins probes timestamp =>
      obtain ⟨⟨boundary, _⟩, observed, same⟩ := of_map_eq_ok called
      cases same
      rw [Call.table?, Option.toList_none, List.append_nil]
      exact books.observe observed
  | enterInterrupt pins timestamp guardTime =>
      cases called
      rw [of_enterInterrupt]
      exact { still with }
  | countCycle pins probes =>
      cases called
      exact { still with }
  | collectComplaints pins probes =>
      obtain ⟨⟨complaints, _⟩, collected, same⟩ := of_map_eq_ok called
      cases same
      obtain ⟨-, count, rfl⟩ := of_collectComplaints collected
      exact { still with }

/-- What calls keep, one after the other. -/
theorem callAll (called : audit.callAll calls = .ok (found, after)) :
    after.Consistent (tables ++ calls.filterMap Call.table?) (past ++ found) := by
  induction calls generalizing audit tables past found with
  | nil =>
      cases called
      rwa [List.filterMap_nil, List.append_nil, List.append_nil]
  | cons first calls ih =>
      obtain ⟨⟨now, next⟩, done, rest⟩ := bind_eq_ok.mp called
      obtain ⟨⟨later, _⟩, others, same⟩ := bind_eq_ok.mp rest
      cases same
      have last := ih (books.call done) others
      have handed : (first :: calls).filterMap Call.table? =
          first.table?.toList ++ calls.filterMap Call.table? := by
        cases held : first.table? <;> simp [held]
      rwa [List.append_assoc, List.append_assoc, ← handed] at last

end Consistent

/-- The audit has come about by calls. -/
def Reachable (audit : Audit) : Prop :=
  ∃ table stackLimit calls found, (initial table stackLimit).callAll calls = .ok (found, audit)

theorem callAll_append {later : List Discrepancy}
    (called : audit.callAll calls = .ok (found, changed))
    (others : changed.callAll more = .ok (later, after)) :
    audit.callAll (calls ++ more) = .ok (found ++ later, after) := by
  induction calls generalizing audit found with
  | nil =>
      cases called
      exact others
  | cons first calls ih =>
      obtain ⟨⟨now, next⟩, done, rest⟩ := bind_eq_ok.mp called
      obtain ⟨⟨soon, _⟩, remaining, same⟩ := bind_eq_ok.mp rest
      cases same
      rw [List.append_assoc]
      exact bind_eq_ok.mpr ⟨_, done, bind_eq_ok.mpr ⟨_, ih remaining, rfl⟩⟩

theorem reachable_initial (table : CycleTable) (stackLimit : UInt16) :
    (initial table stackLimit).Reachable :=
  ⟨table, stackLimit, [], [], rfl⟩

theorem Reachable.call (reachable : audit.Reachable) (call : Call)
    (called : audit.call call = .ok (found, changed)) : changed.Reachable := by
  obtain ⟨table, stackLimit, calls, past, ran⟩ := reachable
  have once : audit.callAll [call] = .ok (found ++ [], changed) :=
    bind_eq_ok.mpr ⟨_, called, rfl⟩
  exact ⟨table, stackLimit, _, _, callAll_append ran once⟩

theorem Reachable.observe (reachable : audit.Reachable) {pins : Pins} {probes : Probes}
    {timestamp : UInt64} {boundary : Option Boundary}
    (observed : audit.observe pins probes timestamp = .ok (boundary, changed)) :
    changed.Reachable := by
  have called : audit.call (.observe pins probes timestamp) = .ok (reported boundary, changed) := by
    rw [Audit.call, observed]
    rfl
  exact reachable.call _ called

theorem Reachable.collectComplaints (reachable : audit.Reachable) {pins : Pins} {probes : Probes}
    {complaints : List Complaint}
    (collected : audit.collectComplaints pins probes = .ok (complaints, changed)) :
    changed.Reachable := by
  have called : audit.call (.collectComplaints pins probes) = .ok ([], changed) := by
    rw [Audit.call, collected]
    rfl
  exact reachable.call _ called

end Audit

/-- Whatever happens to a board, its audit is called at most once. -/
theorem Board.Move.audit_reachable {before after : Board} (move : Move before after)
    (reachable : before.audit.Reachable) : after.audit.Reachable := by
  cases move with
  | halfCycle passed =>
      obtain ⟨oscillator, -, -, rfl⟩ := of_halfCycle passed
      exact reachable
  | latchEdges probes latched =>
      obtain ⟨cells, -, rfl⟩ := of_latchEdges latched
      exact reachable
  | tickRegisters settings ticked =>
      obtain ⟨registers, -, rfl⟩ := of_tickRegisters ticked
      exact reachable
  | present memory contrast shown =>
      obtain ⟨ram, screen, -, -, -, rfl⟩ := of_present shown
      exact reachable
  | collectComplaints pins probes collected => exact reachable.collectComplaints collected
  | observe pins probes timestamp observed => exact reachable.observe observed
  | enterInterrupt pins timestamp guardTime =>
      exact reachable.call (.enterInterrupt pins timestamp guardTime) rfl
  | countCycle pins probes => exact reachable.call (.countCycle pins probes) rfl
  | fetch bus codeBank fetched =>
      obtain ⟨bios, cartridge, incidents, -, -, rfl⟩ := of_fetch fetched
      exact reachable
  | store bus stored =>
      obtain ⟨ram, registers, incidents, -, -, rfl⟩ := of_store stored
      exact reachable
  | writeRegister offset data written =>
      obtain ⟨registers, incidents, -, -, rfl⟩ := of_writeRegister written
      exact reachable
  | raise offset mask done => exact reachable
  | setKeys keys => exact reachable
  | takeRedraw => exact reachable

theorem Board.Moves.audit_reachable {before after : Board} (moves : Moves before after)
    (reachable : before.audit.Reachable) : after.audit.Reachable := by
  induction moves with
  | refl => exact reachable
  | tail _ move ih => exact move.audit_reachable ih

/-- The audit of a reachable machine has come about by calls. A reset starts it anew, and
a snapshot brings the one of the machine that was saved. -/
theorem Machine.Reached.audit_reachable {σ : Type} [Core σ] {n : Nat} {machine : Machine σ}
    (reached : Reached n machine) : machine.board.audit.Reachable := by
  induction reached with
  | start core settings =>
      rw [Machine.start, board_holdReset]
      exact Audit.reachable_initial _ _
  | loadBios _ _ loaded ih =>
      obtain ⟨bios, -, same⟩ := bind_eq_ok.mp loaded
      cases same
      exact ih
  | loadCartridge _ loaded ih =>
      obtain ⟨cartridge, -, same⟩ := bind_eq_ok.mp loaded
      cases same
      exact ih
  | setTable _ _ ih => exact ih.call (.setTable _) rfl
  | setKeys keys _ ih =>
      rw [board_setKeys]
      exact ih
  | setRunning running _ ih => exact ih
  | pokeRegister _ poked ih =>
      obtain ⟨⟨write, board⟩, written, same⟩ := bind_eq_ok.mp poked
      cases same
      exact (Board.Move.writeRegister _ _ written).audit_reachable ih
  | raise _ done ih =>
      obtain ⟨⟨raised, registers⟩, -, same⟩ := bind_eq_ok.mp done
      cases same
      exact ih
  | present _ shown ih => exact (Board.Move.present _ _ shown).audit_reachable ih
  | takeRedraw _ ih => exact ih
  | step _ stepped ih => exact Board.Moves.audit_reachable (moves_of_step stepped) ih
  | reset _ _ =>
      rw [Machine.reset, board_holdReset]
      exact Audit.reachable_initial _ _
  | exchangeCore core _ ih => exact ih
  | restore _ savedReached restored _ savedIh =>
      rw [eq_of_restore_snapshot savedReached.intact restored]
      exact savedIh

end Handheld
