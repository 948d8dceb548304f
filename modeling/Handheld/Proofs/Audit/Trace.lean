/-
# The audit read off a trace

What the audit keeps in its books step by step can be said of the row of sampled
frames at once, without any state: which steps close an instruction, which of
them are audited, and how many cycles each one took. The books after `k` steps
are exactly what the trace says about its first `k` steps.

Steps are numbered from one, so that step `i` is sampled at time `2 * i`, and
zero stands for the start of the trace.
-/

import Mathlib.Data.Nat.Find
import Mathlib.Order.Interval.Finset.Nat
import Mathlib.Tactic.Tauto
import Handheld.Proofs.Audit.Tally
import Handheld.Proofs.Bitmap
import Handheld.Proofs.Board.Effects

namespace Handheld

open Checked

/-- Entering an opcode as executed adds it to the set, if it has a slot. -/
theorem Audit.members_of_markExecuted {audit : Audit} {opcode : UInt16} {executed : Array UInt64}
    (marked : audit.markExecuted opcode = .ok { audit with executed }) :
    Bitmap.members executed =
      if opcode.toNat < CycleTable.slots then insert opcode.toNat (Bitmap.members audit.executed)
      else Bitmap.members audit.executed := by
  unfold markExecuted at marked
  split at marked
  · rename_i slot
    obtain ⟨words, inserted, same⟩ := bind_eq_ok.mp marked
    cases same
    rw [if_pos slot, Bitmap.members_of_insert inserted, Finset.insert_eq]
  · rename_i noSlot
    have same : audit.executed = executed := congrArg Audit.executed (Except.ok.inj marked)
    rw [if_neg noSlot, ← same]

/-- The frames that an audit sees, with what it judges them by. -/
structure Trace where
  /-- The frame sampled in each step. -/
  frames : Nat → Frame
  /-- The time up to which interrupt acknowledges do not count. -/
  guardTime : UInt64
  table : CycleTable

namespace Trace

variable (trace : Trace) (i : Nat)

def pins : Pins := (trace.frames i).pins

def probes : Probes := (trace.frames i).probes

/-- The opcode shown in a step. -/
def opcode : UInt16 := (trace.probes i).extendedOpcode

/-- The step is the last one of an instruction. -/
def Closes : Prop :=
  (trace.pins i).sync = true ∧ (trace.pins i).pl = false ∧
    (trace.probes i).microOp &&& 0x1000 ≠ 0 ∧
    (trace.pins i).iack = false ∧ (trace.probes i).busAck = false

/-- The step enters an interrupt. -/
def Enters : Prop :=
  trace.guardTime.toNat < 2 * i ∧
    (trace.pins i).iack = true ∧ (trace.pins i).sync = true ∧ (trace.pins i).pl = false

/-- The step fetches an instruction. -/
def Fetches : Prop :=
  (trace.pins i).sync = true ∧ (trace.pins i).pl = true

/-- The step counts as a cycle of an instruction. -/
def Counts : Prop :=
  (trace.pins i).pl = true ∧ (trace.probes i).busAck = false

instance : DecidablePred trace.Closes := fun _ => inferInstanceAs (Decidable (_ ∧ _))
instance : DecidablePred trace.Enters := fun _ => inferInstanceAs (Decidable (_ ∧ _))
instance : DecidablePred trace.Fetches := fun _ => inferInstanceAs (Decidable (_ ∧ _))
instance : DecidablePred trace.Counts := fun _ => inferInstanceAs (Decidable (_ ∧ _))

/-- The closing step before step `i`, or the start. -/
def previousClosing : Nat :=
  Nat.findGreatest trace.Closes (i - 1)

/-- The step closes an instruction, and no interrupt has been entered since the
previous one was closed. -/
def Audited : Prop :=
  trace.Closes i ∧ ∀ j ∈ Finset.Ioo (trace.previousClosing i) i, ¬ trace.Enters j

instance : DecidablePred trace.Audited := fun _ => inferInstanceAs (Decidable (_ ∧ _))

/-- The fetch before step `i`, or the first step. -/
def previousFetch : Nat :=
  max 1 (Nat.findGreatest trace.Fetches (i - 1))

/-- The number of cycles counted from one step up to another. -/
def cyclesBetween (first last : Nat) : Nat :=
  ((Finset.Ico first last).filter trace.Counts).card

/-- The number of cycles observed in step `i`: those since the fetch, up to 255. -/
def observed : Nat :=
  min 255 (trace.cyclesBetween (trace.previousFetch i) i)

/-- The cycles observed are none of those in the table, which knows the opcode. -/
def Disagrees : Prop :=
  (trace.table.get (trace.opcode i)).cycles ≠ 0 ∧
    trace.observed i ≠ (trace.table.get (trace.opcode i)).cycles.toNat ∧
    ((trace.table.get (trace.opcode i)).branchCycles ≠ 0 →
      trace.observed i ≠ (trace.table.get (trace.opcode i)).branchCycles.toNat)

instance : DecidablePred trace.Disagrees := fun _ => inferInstanceAs (Decidable (_ ∧ _))

/-- What an audit reports in step `i`. -/
def boundary : Option Boundary :=
  if trace.Audited i then
    some
      { opcode := trace.opcode i
        cycles := UInt8.ofNat (trace.observed i)
        timestamp := UInt64.ofNat (2 * i)
        discrepancy :=
          if trace.Disagrees i then
            some ⟨trace.opcode i, trace.table.get (trace.opcode i),
              UInt8.ofNat (trace.observed i), UInt64.ofNat (2 * i)⟩
          else none }
  else none

/-- The audited steps among the first `k`. -/
def audited (k : Nat) : Finset Nat :=
  (Finset.Icc 1 k).filter trace.Audited

/-- The opcodes of the audited steps among the first `k`, as far as they have a
slot. -/
def executed (k : Nat) : Finset UInt16 :=
  ((trace.audited k).image trace.opcode).filter fun opcode => opcode.toNat < CycleTable.slots

/-- The audited steps among the first `k` that disagree with the table. -/
def disagreeing (k : Nat) : Finset Nat :=
  (trace.audited k).filter trace.Disagrees

variable {trace} {i} {k : Nat}

theorem previousClosing_succ :
    trace.previousClosing (k + 2) =
      if trace.Closes (k + 1) then k + 1 else trace.previousClosing (k + 1) :=
  Nat.findGreatest_succ k

theorem previousClosing_le : trace.previousClosing (k + 1) ≤ k :=
  Nat.findGreatest_le k

theorem cyclesBetween_self (first : Nat) : trace.cyclesBetween first first = 0 := by
  simp [cyclesBetween]

theorem cyclesBetween_succ {first last : Nat} (ordered : first ≤ last) :
    trace.cyclesBetween first (last + 1) =
      trace.cyclesBetween first last + if trace.Counts last then 1 else 0 := by
  have fresh : last ∉ (Finset.Ico first last).filter trace.Counts := by simp
  rw [cyclesBetween, cyclesBetween, Nat.Ico_succ_right_eq_insert_Ico ordered,
    Finset.filter_insert]
  split
  · rw [Finset.card_insert_of_notMem fresh]
  · rfl

/-- A fetch starts the count over, and a step that counts adds one to it. -/
theorem observed_succ :
    trace.observed (k + 2) =
      min 255 ((if trace.Fetches (k + 1) then 0 else trace.observed (k + 1)) +
        if trace.Counts (k + 1) then 1 else 0) := by
  by_cases fetches : trace.Fetches (k + 1)
  · have start : trace.previousFetch (k + 2) = k + 1 := by
      show max 1 (Nat.findGreatest trace.Fetches (k + 1)) = k + 1
      rw [Nat.findGreatest_eq fetches]
      omega
    rw [if_pos fetches, observed, start, cyclesBetween_succ le_rfl, cyclesBetween_self]
  · have start : trace.previousFetch (k + 2) = trace.previousFetch (k + 1) := by
      show max 1 (Nat.findGreatest trace.Fetches (k + 1)) = max 1 (Nat.findGreatest trace.Fetches k)
      rw [Nat.findGreatest_of_not fetches]
    have before : trace.previousFetch (k + 1) ≤ k + 1 := by
      have bound : Nat.findGreatest trace.Fetches k ≤ k := Nat.findGreatest_le k
      show max 1 (Nat.findGreatest trace.Fetches k) ≤ k + 1
      omega
    rw [if_neg fetches, observed, start, cyclesBetween_succ before, observed]
    omega

theorem audited_succ :
    trace.audited (k + 1) =
      if trace.Audited (k + 1) then insert (k + 1) (trace.audited k) else trace.audited k := by
  have steps : Finset.Icc 1 (k + 1) = insert (k + 1) (Finset.Icc 1 k) := by
    ext j
    simp only [Finset.mem_insert, Finset.mem_Icc]
    omega
  rw [audited, steps, Finset.filter_insert]
  rfl

theorem succ_notMem_audited : k + 1 ∉ trace.audited k := by
  simp [audited]

theorem executed_of_audited (isAudited : trace.Audited (k + 1)) :
    trace.executed (k + 1) =
      if (trace.opcode (k + 1)).toNat < CycleTable.slots then
        insert (trace.opcode (k + 1)) (trace.executed k)
      else trace.executed k := by
  rw [executed, audited_succ, if_pos isAudited, Finset.image_insert, Finset.filter_insert]
  rfl

theorem disagreeing_of_audited (isAudited : trace.Audited (k + 1)) :
    trace.disagreeing (k + 1) =
      if trace.Disagrees (k + 1) then insert (k + 1) (trace.disagreeing k)
      else trace.disagreeing k := by
  rw [disagreeing, audited_succ, if_pos isAudited, Finset.filter_insert]
  rfl

theorem succ_notMem_disagreeing : k + 1 ∉ trace.disagreeing k :=
  fun member => succ_notMem_audited (Finset.mem_filter.mp member).1

theorem isBoundary_iff :
    Audit.isBoundary (trace.pins i) (trace.probes i) = true ↔ trace.Closes i := by
  simp only [Audit.isBoundary, Probes.isBoundary, Probes.boundaryBit, Closes, Bool.and_eq_true,
    Bool.not_eq_true', bne_iff_ne]
  tauto

theorem isEntry_iff {timestamp : UInt64} (clock : timestamp.toNat = 2 * i) :
    Audit.isEntry (trace.pins i) timestamp trace.guardTime = true ↔ trace.Enters i := by
  simp only [Audit.isEntry, Enters, Bool.and_eq_true, Bool.not_eq_true', decide_eq_true_eq,
    UInt64.lt_iff_toNat_lt, clock]
  tauto

/-- The counter of the audit is a byte that stays at its greatest value. -/
theorem toNat_countCycle (audit : Audit) :
    (audit.countCycle (trace.pins i) (trace.probes i)).cycles.toNat =
      min 255 ((if trace.Fetches i then 0 else audit.cycles.toNat) +
        if trace.Counts i then 1 else 0) := by
  have upTo (start : UInt8) (counts : Bool) :
      (if (counts && start != 255) = true then start + 1 else start).toNat =
        min 255 (start.toNat + if counts = true then 1 else 0) := by
    have bound : start.toNat < 256 := start.toNat_lt
    cases counts with
    | false =>
        simp
        omega
    | true =>
        by_cases full : start = 255
        · subst full
          rfl
        · have notFull : start.toNat ≠ 255 := fun same => full (UInt8.toNat.inj same)
          simp [full, UInt8.toNat_add]
          omega
  have fetches : ((trace.pins i).sync && (trace.pins i).pl) = true ↔ trace.Fetches i := by
    rw [Bool.and_eq_true, Fetches]
  have counts : ((trace.pins i).pl && !(trace.probes i).busAck) = true ↔ trace.Counts i := by
    rw [Bool.and_eq_true, Bool.not_eq_true', Counts]
  rw [Audit.countCycle, upTo]
  simp only [fetches, counts]
  split <;> rfl

theorem disagrees_iff {cycles : UInt8} (counted : cycles.toNat = trace.observed i) :
    ((trace.table.get (trace.opcode i)).isKnown = true ∧
        (trace.table.get (trace.opcode i)).admits cycles = false) ↔ trace.Disagrees i := by
  simp only [CycleEntry.isKnown, CycleEntry.admits, Disagrees, ← counted, bne_iff_ne,
    Bool.or_eq_false_iff, Bool.and_eq_false_iff, beq_eq_false_iff_ne, bne_eq_false_iff_eq,
    ne_eq, UInt8.toNat_inj]
  tauto

/-! ## The books -/

/-- The books hold what the trace says about its first `k` steps. -/
structure Books (trace : Trace) (k : Nat) (audit : Audit) : Prop where
  table : audit.table = trace.table
  room : audit.executed.size = (CycleTable.slots + 63) / 64
  executed : Bitmap.members audit.executed = (trace.executed k).image UInt16.toNat
  discrepancies : ∀ opcode, (audit.discrepancies.get opcode).toNat =
    ((trace.disagreeing k).filter fun i => trace.opcode i = opcode).card
  total : audit.discrepancies.total = (trace.disagreeing k).card

variable {audit changed : Audit} {timestamp : UInt64} {found : Option Boundary}

theorem books_initial (stackLimit : UInt16) :
    trace.Books 0 (Audit.initial trace.table stackLimit) where
  table := rfl
  room := Array.size_replicate
  executed := Bitmap.members_empty _
  discrepancies _ := rfl
  total := rfl

/-- A step that is not audited leaves the books as they are. -/
theorem Books.pass (books : trace.Books k audit) (skipped : ¬ trace.Audited (k + 1)) :
    trace.Books (k + 1) audit := by
  have same : trace.audited (k + 1) = trace.audited k := by rw [audited_succ, if_neg skipped]
  refine { books with executed := ?_, discrepancies := ?_, total := ?_ }
  · rw [books.executed, Trace.executed, Trace.executed, same]
  · intro opcode
    rw [books.discrepancies, disagreeing, disagreeing, same]
  · rw [books.total, disagreeing, disagreeing, same]

theorem Books.members_of_markExecuted (books : trace.Books k audit)
    (isAudited : trace.Audited (k + 1)) {executed : Array UInt64}
    (marked : audit.markExecuted (trace.opcode (k + 1)) = .ok { audit with executed }) :
    Bitmap.members executed = (trace.executed (k + 1)).image UInt16.toNat := by
  rw [executed_of_audited isAudited, Audit.members_of_markExecuted marked]
  split
  · rw [books.executed, Finset.image_insert]
  · rw [books.executed]

/-- An audited step that agrees with the table enters its opcode. -/
theorem Books.mark (books : trace.Books k audit) (isAudited : trace.Audited (k + 1))
    (agrees : ¬ trace.Disagrees (k + 1)) {executed : Array UInt64}
    (marked : audit.markExecuted (trace.opcode (k + 1)) = .ok { audit with executed }) :
    trace.Books (k + 1) { audit with executed } := by
  obtain ⟨_, sized, same⟩ := Audit.of_markExecuted marked
  cases same
  have same : trace.disagreeing (k + 1) = trace.disagreeing k := by
    rw [disagreeing_of_audited isAudited, if_neg agrees]
  refine { table := books.table, room := sized.trans books.room,
           executed := books.members_of_markExecuted isAudited marked,
           discrepancies := ?_, total := ?_ }
  · intro opcode
    rw [same]
    exact books.discrepancies opcode
  · rw [same]
    exact books.total

/-- An audited step that disagrees also counts as a discrepancy of its opcode. -/
theorem Books.count (books : trace.Books k audit) (isAudited : trace.Audited (k + 1))
    (disagrees : trace.Disagrees (k + 1)) {executed : Array UInt64} {discrepancies : Tally}
    (marked : audit.markExecuted (trace.opcode (k + 1)) = .ok { audit with executed })
    (counted : audit.discrepancies.increment (trace.opcode (k + 1)) = .ok discrepancies) :
    trace.Books (k + 1) { audit with executed, discrepancies } := by
  obtain ⟨_, sized, same⟩ := Audit.of_markExecuted marked
  cases same
  obtain ⟨counts, total⟩ := Tally.of_increment counted
  have grown : trace.disagreeing (k + 1) = insert (k + 1) (trace.disagreeing k) := by
    rw [disagreeing_of_audited isAudited, if_pos disagrees]
  refine { table := books.table, room := sized.trans books.room,
           executed := books.members_of_markExecuted isAudited marked,
           discrepancies := ?_, total := ?_ }
  · intro opcode
    have fresh : k + 1 ∉ (trace.disagreeing k).filter fun i => trace.opcode i = opcode :=
      fun member => succ_notMem_disagreeing (Finset.mem_filter.mp member).1
    rw [counts, books.discrepancies, grown, Finset.filter_insert]
    by_cases same : trace.opcode (k + 1) = opcode
    · rw [if_pos same, if_pos same.symm, Finset.card_insert_of_notMem fresh]
    · rw [if_neg same, if_neg (Ne.symm same), Nat.add_zero]
  · rw [total, books.total, grown, Finset.card_insert_of_notMem succ_notMem_disagreeing]

/-- The answers that the books give about opcodes. -/
theorem Books.isExecuted (books : trace.Books k audit) (opcode : UInt16) :
    audit.isExecuted opcode = .ok (decide (opcode ∈ trace.executed k)) := by
  have listed : opcode.toNat ∈ Bitmap.members audit.executed ↔ opcode ∈ trace.executed k := by
    rw [books.executed, Finset.mem_image]
    constructor
    · rintro ⟨other, member, same⟩
      rwa [← UInt16.toNat.inj same]
    · intro member
      exact ⟨opcode, member, rfl⟩
  unfold Audit.isExecuted
  split
  · rename_i slot
    have room : opcode.toNat / 64 < audit.executed.size := by
      rw [books.room]
      unfold CycleTable.slots at slot ⊢
      omega
    rw [Bitmap.contains_eq room]
    simp only [listed]
  · rename_i noSlot
    have absent : opcode ∉ trace.executed k := fun member =>
      noSlot (Finset.mem_filter.mp member).2
    rw [decide_eq_false absent]

theorem Books.executedCount (books : trace.Books k audit) :
    audit.executedCount = (trace.executed k).card := by
  rw [Audit.executedCount, Bitmap.count_eq_card, books.executed]
  exact Finset.card_image_of_injective _ fun _ _ same => UInt16.toNat.inj same

/-- An interrupt has been entered since the closing step before step `i`. -/
def EnteredBefore (trace : Trace) (i : Nat) : Prop :=
  ∃ j ∈ Finset.Ioo (trace.previousClosing i) i, trace.Enters j

/-- Between steps `k` and `k + 1` the audit has seen the first `k` steps, and its
two running records are those that step `k + 1` will need. -/
structure Follows (trace : Trace) (k : Nat) (audit : Audit) : Prop where
  books : trace.Books k audit
  cycles : audit.cycles.toNat = trace.observed (k + 1)
  inInterrupt : audit.inInterrupt = true ↔ trace.EnteredBefore (k + 1)

theorem audited_iff : trace.Audited i ↔ trace.Closes i ∧ ¬ trace.EnteredBefore i := by
  rw [Audited, EnteredBefore]
  push Not
  rfl

theorem not_enters_of_closes (closes : trace.Closes i) : ¬ trace.Enters i := by
  obtain ⟨-, -, -, noAcknowledge, -⟩ := closes
  rintro ⟨-, acknowledge, -⟩
  rw [noAcknowledge] at acknowledge
  cases acknowledge

/-- A closing step forgets earlier entries, and a step that enters is remembered. -/
theorem enteredBefore_succ :
    trace.EnteredBefore (k + 2) ↔
      trace.Enters (k + 1) ∨ ¬ trace.Closes (k + 1) ∧ trace.EnteredBefore (k + 1) := by
  have before : trace.previousClosing (k + 1) ≤ k := previousClosing_le
  rw [EnteredBefore, previousClosing_succ]
  simp only [Finset.mem_Ioo]
  by_cases closes : trace.Closes (k + 1)
  · rw [if_pos closes]
    constructor
    · rintro ⟨j, between, -⟩
      omega
    · rintro (enters | ⟨opens, -⟩)
      · exact absurd enters (not_enters_of_closes closes)
      · exact absurd closes opens
  · rw [if_neg closes]
    constructor
    · rintro ⟨j, ⟨after, upTo⟩, enters⟩
      rcases Nat.lt_succ_iff_lt_or_eq.mp upTo with earlier | rfl
      · exact .inr ⟨closes, j, Finset.mem_Ioo.mpr ⟨after, earlier⟩, enters⟩
      · exact .inl enters
    · rintro (enters | ⟨-, j, between, enters⟩)
      · exact ⟨k + 1, ⟨by omega, by omega⟩, enters⟩
      · obtain ⟨after, earlier⟩ := Finset.mem_Ioo.mp between
        exact ⟨j, ⟨after, by omega⟩, enters⟩

theorem follows_initial (stackLimit : UInt16) :
    trace.Follows 0 (Audit.initial trace.table stackLimit) where
  books := books_initial stackLimit
  cycles := by
    show 0 = min 255 (trace.cyclesBetween 1 1)
    rw [cyclesBetween_self]
    rfl
  inInterrupt := by
    constructor
    · intro never
      cases never
    · rintro ⟨j, between, -⟩
      rw [Finset.mem_Ioo] at between
      omega

/-- Looking at step `k + 1` reports what the trace says of it and brings the
books up to date. The interrupt flag survives only outside closing steps. -/
theorem Follows.observe (follows : trace.Follows k audit) (clock : timestamp.toNat = 2 * (k + 1))
    (observing : audit.observe (trace.pins (k + 1)) (trace.probes (k + 1)) timestamp =
      .ok (found, changed)) :
    found = trace.boundary (k + 1) ∧ trace.Books (k + 1) changed ∧
      changed.cycles = audit.cycles ∧
      (changed.inInterrupt = true ↔ ¬ trace.Closes (k + 1) ∧ trace.EnteredBefore (k + 1)) := by
  have time : timestamp = UInt64.ofNat (2 * (k + 1)) := by rw [← clock, UInt64.ofNat_toNat]
  have cycles : audit.cycles = UInt8.ofNat (trace.observed (k + 1)) := by
    rw [← follows.cycles, UInt8.ofNat_toNat]
  obtain ⟨elsewhere, rfl, rfl⟩ | ⟨closing, entering, rfl, rfl⟩ |
    ⟨closing, notEntering, executed, discrepancies, finding, marked, outcome, rfl, rfl⟩ :=
    Audit.observe_cases observing
  · have opens : ¬ trace.Closes (k + 1) := by
      rw [← isBoundary_iff, elsewhere]
      exact Bool.false_ne_true
    have skipped : ¬ trace.Audited (k + 1) := fun isAudited => opens isAudited.1
    refine ⟨by rw [boundary, if_neg skipped], follows.books.pass skipped, rfl, ?_⟩
    rw [follows.inInterrupt]
    exact ⟨fun entered => ⟨opens, entered⟩, And.right⟩
  · have closes := isBoundary_iff.mp closing
    have skipped : ¬ trace.Audited (k + 1) := fun isAudited =>
      (audited_iff.mp isAudited).2 (follows.inInterrupt.mp entering)
    have books : trace.Books (k + 1) audit := follows.books.pass skipped
    refine ⟨by rw [boundary, if_neg skipped], { books with }, rfl, ?_⟩
    exact ⟨nofun, fun open_ => absurd closes open_.1⟩
  · have closes := isBoundary_iff.mp closing
    have notEntered : ¬ trace.EnteredBefore (k + 1) := by
      rw [← follows.inInterrupt, notEntering]
      exact Bool.false_ne_true
    have isAudited : trace.Audited (k + 1) := audited_iff.mpr ⟨closes, notEntered⟩
    have closed : audit.inInterrupt = true ↔
        ¬ trace.Closes (k + 1) ∧ trace.EnteredBefore (k + 1) := by
      rw [follows.inInterrupt]
      exact ⟨fun entered => absurd entered notEntered, And.right⟩
    have disagrees := disagrees_iff follows.cycles
    rw [← follows.books.table] at disagrees
    rcases outcome with ⟨agreement, rfl, rfl⟩ | ⟨known, refused, rfl, counted⟩
    · have agrees : ¬ trace.Disagrees (k + 1) := by
        intro differs
        obtain ⟨known, refused⟩ := disagrees.mpr differs
        rcases agreement with unknown | admitted
        · exact Bool.false_ne_true (unknown.symm.trans known)
        · exact Bool.false_ne_true (refused.symm.trans admitted)
      refine ⟨?_, follows.books.mark isAudited agrees marked, rfl, closed⟩
      rw [boundary, if_pos isAudited, if_neg agrees, cycles, time]
      rfl
    · have differs : trace.Disagrees (k + 1) := disagrees.mp ⟨known, refused⟩
      refine ⟨?_, follows.books.count isAudited differs marked counted, rfl, closed⟩
      rw [boundary, if_pos isAudited, if_pos differs, cycles, time, follows.books.table]
      rfl

/-- An audit that follows a trace follows it through the next step. -/
theorem Follows.step (follows : trace.Follows k audit) (clock : timestamp.toNat = 2 * (k + 1))
    (observing : audit.observe (trace.pins (k + 1)) (trace.probes (k + 1)) timestamp =
      .ok (found, changed)) :
    trace.Follows (k + 1)
      ((changed.enterInterrupt (trace.pins (k + 1)) timestamp trace.guardTime).2.countCycle
        (trace.pins (k + 1)) (trace.probes (k + 1))) := by
  obtain ⟨-, books, cycles, inInterrupt⟩ := follows.observe clock observing
  rw [Audit.of_enterInterrupt]
  refine { books := { books with }, cycles := ?_, inInterrupt := ?_ }
  · rw [toNat_countCycle, observed_succ, cycles, follows.cycles]
  · show (Audit.isEntry _ _ _ || changed.inInterrupt) = true ↔ _
    rw [Bool.or_eq_true, isEntry_iff clock, inInterrupt, enteredBefore_succ]

end Trace

end Handheld
