/-
# The coverage report

A coverage report is drawn up from the books of an audit and from what was read of
two images. The books keep discrepancies by opcode and in no order that a reader could
rely on, so the report sorts them. This module says that the report does not depend on
the order in which they were met, and what it says of the calls behind the audit: its
list has the opcodes that were reported, with the number of their reports.

Nothing is asked of the images but that they can be held at all. The audit and the images
of a reachable machine are of this kind, so that it always has such a report.
-/

import Handheld.Core.Scripted
import Handheld.Proofs.Audit.Calls
import Handheld.Proofs.Board.Progress

namespace Handheld

open Checked

namespace Rom

/-- The images that can be held. An image is loaded, unless the socket is empty. It is read
over the bus, and the record of that is cleared. Anything has become such an image once
the bytes of one are attached to it. -/
inductive Reachable : Rom → Prop
  | empty (kind : RomKind) : Reachable (empty kind)
  | bios {image : Array UInt8} {rom : Rom} : Rom.bios image = .ok rom → Reachable rom
  | cartridge {image : Array UInt8} {rom : Rom} : Rom.cartridge image = .ok rom → Reachable rom
  | fetch {rom changed : Rom} {offset : Nat} {data : UInt8} :
      Reachable rom → rom.fetch offset = .ok (data, changed) → Reachable changed
  | clearTouched {rom : Rom} : Reachable rom → Reachable rom.clearTouched
  | attach (rom : Rom) {source : Rom} : Reachable source → Reachable (rom.attach source)

variable {rom : Rom}

theorem Reachable.holds (reachable : rom.Reachable) : ∃ kind image, rom.Holds kind image := by
  induction reachable with
  | empty kind => exact ⟨kind, _, empty_holds kind⟩
  | bios made => exact ⟨_, _, holds_of_bios made⟩
  | cartridge made => exact ⟨_, _, holds_of_cartridge made⟩
  | fetch _ fetched ih =>
      obtain ⟨kind, image, holds⟩ := ih
      exact ⟨kind, image, holds.sameImage (sameImage_of_fetch fetched)⟩
  | clearTouched _ ih =>
      obtain ⟨kind, image, holds⟩ := ih
      exact ⟨kind, image, holds.clearTouched⟩
  | attach rom _ ih =>
      obtain ⟨kind, image, holds⟩ := ih
      exact ⟨rom.kind, image, holds.attach rom⟩

/-- Each offset is counted at most once, whatever the record has become. -/
theorem countTouched_le {n count total : Nat} (counted : rom.countTouched n count = .ok total) :
    total ≤ count + n := by
  induction n generalizing count with
  | zero =>
      cases counted
      exact le_rfl
  | succ n ih =>
      obtain ⟨touched, -, rest⟩ := bind_eq_ok.mp counted
      have bound := ih rest
      split at bound <;> omega

theorem touchedCount_le {total : Nat} (counted : rom.touchedCount = .ok total) :
    total ≤ rom.length.toNat := by
  have bound := countTouched_le counted
  omega

end Rom

/-- What a report says, where `found` are the discrepancies that were reported. The opcodes
are in strict order and none is listed twice. Those that were reported are listed and no
others, with the number of their reports. No more was read or executed than there is. -/
structure Coverage.Tells (report : Coverage) (found : List Discrepancy) : Prop where
  ranked : report.worst.Pairwise Tally.Outranks
  distinct : (report.worst.map Prod.fst).Nodup
  listed : ∀ opcode, opcode ∈ report.worst.map Prod.fst ↔
    ∃ discrepancy ∈ found, discrepancy.opcode = opcode
  counts : ∀ entry ∈ report.worst, entry.2.toNat =
    found.countP (fun discrepancy => discrepancy.opcode = entry.1)
  sum : (report.worst.map fun entry => entry.2.toNat).sum = report.discrepancies
  total : report.discrepancies = found.length
  bios : report.biosTouched ≤ report.biosLength
  cartridge : report.cartridgeTouched ≤ report.cartridgeLength
  executed : report.executed ≤ CycleTable.slots

namespace Audit

variable {audit : Audit} {bios cartridge : Rom} {report : Coverage}
  {order : List (UInt16 × UInt32)}

theorem coverageInOrder_eq (perm : order.Perm audit.discrepancies.entries)
    (bios cartridge : Rom) :
    audit.coverageInOrder order bios cartridge = audit.coverage bios cartridge := by
  rw [coverage, coverageInOrder, Tally.sum_eq_total perm, Tally.rank_eq_ranking perm]
  rfl

theorem coverage_succeeds (audit : Audit) (biosReachable : bios.Reachable)
    (cartridgeReachable : cartridge.Reachable) : Succeeds (audit.coverage bios cartridge) := by
  obtain ⟨_, _, biosHolds⟩ := biosReachable.holds
  obtain ⟨_, _, cartridgeHolds⟩ := cartridgeReachable.holds
  exact biosHolds.touchedCount_succeeds.bind fun _ _ =>
    cartridgeHolds.touchedCount_succeeds.bind fun _ _ => .ok _

/-- What the parts of a report are taken from. -/
theorem of_coverage (drawn : audit.coverage bios cartridge = .ok report) :
    bios.touchedCount = .ok report.biosTouched ∧ report.biosLength = bios.length.toNat ∧
      cartridge.touchedCount = .ok report.cartridgeTouched ∧
      report.cartridgeLength = cartridge.length.toNat ∧
      report.executed = audit.executedCount ∧ report.discrepancies = audit.discrepancies.total ∧
      report.worst = audit.discrepancies.ranking := by
  obtain ⟨biosTouched, biosCounted, rest⟩ := bind_eq_ok.mp drawn
  obtain ⟨cartridgeTouched, cartridgeCounted, same⟩ := bind_eq_ok.mp rest
  cases same
  exact ⟨biosCounted, rfl, cartridgeCounted, rfl, rfl, rfl, rfl⟩

namespace Consistent

variable {tables : List CycleTable} {past : List Discrepancy}
  (books : audit.Consistent tables past)
include books

/-- The ranking lists the opcodes that were reported. -/
theorem mem_ranking {opcode : UInt16} :
    opcode ∈ audit.discrepancies.ranking.map Prod.fst ↔
      ∃ discrepancy ∈ past, discrepancy.opcode = opcode := by
  rw [(audit.discrepancies.ranking_perm.map Prod.fst).mem_iff, books.positive.mem_opcodes,
    books.counts, List.countP_pos_iff]
  simp only [decide_eq_true_eq]

/-- An opcode is listed with the number of its reports. -/
theorem count_of_mem_ranking {entry : UInt16 × UInt32}
    (listed : entry ∈ audit.discrepancies.ranking) :
    entry.2.toNat = past.countP (fun discrepancy => discrepancy.opcode = entry.1) := by
  have member : entry ∈ audit.discrepancies.entries :=
    audit.discrepancies.ranking_perm.mem_iff.mp listed
  rw [← books.counts, Tally.get_of_mem member]

/-- What was reported under tables without surplus slots has been executed. -/
theorem isExecuted (slots : ∀ table ∈ tables, table.entries.size = CycleTable.slots)
    {discrepancy : Discrepancy} (reported : discrepancy ∈ past) :
    discrepancy.opcode.toNat < CycleTable.slots ∧
      audit.isExecuted discrepancy.opcode = .ok true := by
  obtain ⟨slot, member⟩ := books.executed slots discrepancy reported
  have room : discrepancy.opcode.toNat / 64 < audit.executed.size :=
    (Bitmap.mem_members.mp member).1
  refine ⟨slot, ?_⟩
  rw [Audit.isExecuted, if_pos slot, Bitmap.contains_eq room, decide_eq_true member]

theorem executedCount_le : audit.executedCount ≤ CycleTable.slots := by
  have bound := Bitmap.count_le audit.executed
  rw [books.room] at bound
  exact bound

/-- Every report tells what the books have. -/
theorem tells (drawn : audit.coverage bios cartridge = .ok report) : report.Tells past := by
  obtain ⟨biosTouched, biosLength, cartridgeTouched, cartridgeLength, executed, discrepancies,
    worst⟩ := of_coverage drawn
  refine
    { ranked := ?_, distinct := ?_, listed := fun opcode => ?_, counts := fun entry listed => ?_,
      sum := ?_, total := ?_, bios := ?_, cartridge := ?_, executed := ?_ }
  · rw [worst]
    exact Tally.pairwise_ranking _
  · rw [worst]
    exact Tally.nodup_opcodes_ranking _
  · rw [worst]
    exact books.mem_ranking
  · rw [worst] at listed
    exact books.count_of_mem_ranking listed
  · rw [worst, discrepancies, ← Tally.sum_eq]
    exact Tally.sum_eq_total audit.discrepancies.ranking_perm
  · rw [discrepancies]
    exact books.total
  · rw [biosLength]
    exact Rom.touchedCount_le biosTouched
  · rw [cartridgeLength]
    exact Rom.touchedCount_le cartridgeTouched
  · rw [executed]
    exact books.executedCount_le

end Consistent

/-- A coverage report is canonical.

Take an audit that has come about by calls, as that of every reachable machine has. The
calls have reported the discrepancies `found`. Take any two images. If they can be held
there is a report, and the order in which the discrepancies are met makes no difference.

In every report the opcodes are listed in strict order, the most frequent first and smaller
ones before greater ones. No opcode is listed twice; those that were reported are listed
and no others, each with the number of its reports; and these numbers add up to the count
of discrepancies, which is that of all reports. As long as every table had one slot for
each opcode, the opcodes listed are proper ones and have been executed. No more bytes have
been read than an image has, and no more opcodes executed than there are. -/
theorem coverage_is_canonical {table : CycleTable} {stackLimit : UInt16} {calls : List Call}
    {found : List Discrepancy} {audit : Audit}
    (ran : (initial table stackLimit).callAll calls = .ok (found, audit))
    (bios cartridge : Rom) :
    (bios.Reachable → cartridge.Reachable →
      ∃ report, audit.coverage bios cartridge = .ok report) ∧
    (∀ order : List (UInt16 × UInt32), order.Perm audit.discrepancies.entries →
      audit.coverageInOrder order bios cartridge = audit.coverage bios cartridge) ∧
    ∀ report, audit.coverage bios cartridge = .ok report →
      report.worst.Pairwise (fun a b => b.2 < a.2 ∨ a.2 = b.2 ∧ a.1 < b.1) ∧
      (report.worst.map Prod.fst).Nodup ∧
      (∀ opcode, opcode ∈ report.worst.map Prod.fst ↔
        ∃ discrepancy ∈ found, discrepancy.opcode = opcode) ∧
      (∀ entry ∈ report.worst, entry.2.toNat =
        found.countP (fun discrepancy => discrepancy.opcode = entry.1)) ∧
      (report.worst.map fun entry => entry.2.toNat).sum = report.discrepancies ∧
      report.discrepancies = found.length ∧
      ((∀ used ∈ table :: calls.filterMap Call.table?, used.entries.size = 0x300) →
        ∀ entry ∈ report.worst,
          entry.1.toNat < 0x300 ∧ audit.isExecuted entry.1 = .ok true) ∧
      report.biosTouched ≤ report.biosLength ∧
      report.cartridgeTouched ≤ report.cartridgeLength ∧
      report.executed ≤ 0x300 := by
  have books := (consistent_initial table stackLimit).callAll ran
  rw [List.nil_append, List.singleton_append] at books
  refine ⟨fun bios cartridge => audit.coverage_succeeds bios cartridge,
    fun order perm => coverageInOrder_eq perm bios cartridge, fun report drawn => ?_⟩
  have tells := books.tells drawn
  refine ⟨tells.ranked, tells.distinct, tells.listed, tells.counts, tells.sum, tells.total, ?_,
    tells.bios, tells.cartridge, tells.executed⟩
  intro slots entry listed
  obtain ⟨discrepancy, reported, same⟩ :=
    (tells.listed entry.1).mp (List.mem_map.mpr ⟨entry, listed, rfl⟩)
  rw [← same]
  exact books.isExecuted slots reported

/-- The calls by which a frame is looked at and its cycle counted. -/
def Call.ofFrame (frame : Frame) : List Call :=
  [.observe frame.pins frame.probes 0, .countCycle frame.pins frame.probes]

/-- A table that knows two opcodes. -/
def plainTable : CycleTable :=
  (CycleTable.blank.set 0x10 ⟨3, 0⟩).set 0x20 ⟨2, 0⟩

/-- A table that knows an opcode behind a prefix, which may branch. -/
def prefixedTable : CycleTable :=
  CycleTable.blank.set 0x105 ⟨4, 6⟩

/-- Instructions of wrong lengths under two tables. The one of length six branches, and the
last one is unknown to the second table. -/
def disputed : List Call :=
  (ScriptedCore.instruction 0x20 5 ++ ScriptedCore.instruction 0x10 2 ++
      ScriptedCore.instruction 0x20 1).flatMap Call.ofFrame ++
    .setTable prefixedTable ::
    (ScriptedCore.instruction 0x105 5 ++ ScriptedCore.instruction 0x105 6 ++
      ScriptedCore.instruction 0x10 7).flatMap Call.ofFrame

/-- The books have the opcodes in ascending order. They are ranked another way, and two of
them tie. -/
theorem coverage_is_canonical_tied :
    ∃ found audit bios report,
      (initial plainTable 0x2000).callAll disputed = .ok (found, audit) ∧
      (∀ used ∈ plainTable :: disputed.filterMap Call.table?, used.entries.size = 0x300) ∧
      Rom.bios #[7, 8, 9] = .ok bios ∧
      audit.coverage bios (.empty .cartridge) = .ok report ∧
      audit.discrepancies.entries = [(0x10, 1), (0x20, 2), (0x105, 1)] ∧
      report.worst = [(0x20, 2), (0x10, 1), (0x105, 1)] ∧ report.discrepancies = 4 ∧
      ∀ entry ∈ report.worst, entry.1.toNat < 0x300 ∧ audit.isExecuted entry.1 = .ok true := by
  have entries : ((initial plainTable 0x2000).callAll disputed).map
      (fun result => result.2.discrepancies.entries) =
        .ok [(0x10, 1), (0x20, 2), (0x105, 1)] := by decide +kernel
  obtain ⟨⟨found, audit⟩, ran, same⟩ := of_map_eq_ok entries
  have listed : audit.discrepancies.entries = [(0x10, 1), (0x20, 2), (0x105, 1)] := same
  have slots : ∀ used ∈ plainTable :: disputed.filterMap Call.table?,
      used.entries.size = 0x300 := by decide +kernel
  have loaded : Rom.bios #[7, 8, 9] = .ok (.ofImage .bios #[7, 8, 9]) := rfl
  obtain ⟨returns, inAnyOrder, facts⟩ :=
    coverage_is_canonical ran (.ofImage .bios #[7, 8, 9]) (.empty .cartridge)
  obtain ⟨report, drawn⟩ := returns (.bios loaded) (.empty _)
  obtain ⟨-, -, -, -, sum, -, executed, -⟩ := facts report drawn
  have perm : [(0x20, 2), (0x10, 1), (0x105, 1)].Perm audit.discrepancies.entries := by
    rw [listed]
    decide
  have worst : report.worst = [(0x20, 2), (0x10, 1), (0x105, 1)] := by
    rw [← inAnyOrder _ perm] at drawn
    obtain ⟨_, -, rest⟩ := bind_eq_ok.mp drawn
    obtain ⟨_, -, same⟩ := bind_eq_ok.mp rest
    cases same
    exact List.mergeSort_of_pairwise (by decide)
  rw [worst] at sum
  exact ⟨found, audit, _, report, ran, slots, loaded, drawn, listed, worst, sum.symm,
    executed slots⟩

end Audit

/-- A reachable machine has a coverage report, in whatever order its discrepancies are met.
It tells what the calls have reported by which the audit has come about. -/
theorem Machine.Reached.coverage_tells {σ : Type} [Core σ] {n : Nat} {machine : Machine σ}
    (reached : Reached n machine) :
    ∃ table stackLimit calls found report,
      (Audit.initial table stackLimit).callAll calls = .ok (found, machine.board.audit) ∧
      machine.board.coverage = .ok report ∧ report.Tells found ∧
      ∀ order : List (UInt16 × UInt32), order.Perm machine.board.audit.discrepancies.entries →
        machine.board.audit.coverageInOrder order machine.board.bios machine.board.cartridge =
          .ok report := by
  obtain ⟨table, stackLimit, calls, found, ran⟩ := reached.audit_reachable
  obtain ⟨report, drawn⟩ := reached.intact.supplied.coverage_succeeds
  have books := (Audit.consistent_initial table stackLimit).callAll ran
  rw [List.nil_append] at books
  exact ⟨table, stackLimit, calls, found, report, ran, drawn, books.tells drawn,
    fun order perm => (Audit.coverageInOrder_eq perm _ _).trans drawn⟩

end Handheld
