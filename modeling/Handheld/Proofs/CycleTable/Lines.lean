/-
# Cycle tables, line by line

A cycle table in text form is entered line by line, and what a line says does not depend
on the lines around it. So the text may be cut at any line feed: both parts are read as
they would be alone, the numbers of the second part's lines go on where those of the first
ended, and what the second part says of an opcode prevails.

It follows that the reported line is the first one with a flaw, and that of all lines that
name an opcode the last one counts, even if it says that nothing is known. How lines end
is nothing to the table: a carriage return is no part of what a line says, and neither is
there anything to read behind the last end.
-/

import Handheld.Audit.CycleTable
import Handheld.Proofs.Checked
import Handheld.Proofs.Text.Splitting

namespace Handheld.CycleTable

open Checked

@[simp]
theorem size_set (table : CycleTable) (opcode : UInt16) (entry : CycleEntry) :
    (table.set opcode entry).entries.size = table.entries.size := by
  simp [set]

theorem get_set {table : CycleTable} {opcode : UInt16} (hasSlot : opcode.toNat < table.entries.size)
    (entry : CycleEntry) (other : UInt16) :
    (table.set opcode entry).get other = if opcode = other then entry else table.get other := by
  by_cases same : opcode = other
  · subst same
    simp [set, get, hasSlot]
  · have apart : opcode.toNat ≠ other.toNat := fun equal => same (UInt16.toNat.inj equal)
    simp [set, get, Array.getElem?_setIfInBounds_ne apart, same]

theorem get_blank (opcode : UInt16) : blank.get opcode = .unknown := by
  simp only [get, blank, Array.getD_eq_getD_getElem?, Array.getElem?_replicate]
  split <;> rfl

/-- What a line says by itself: nothing, the entry of an opcode, or why it cannot be read. -/
def readLine (line : List Char) : Except String (Option (UInt16 × CycleEntry)) :=
  if (content line).isEmpty then .ok none
  else
    match readFields (Text.words (content line)) with
    | .error flaw => .error (flaw.reason (content line))
    | .ok named => .ok (some named)

/-- Only opcodes with a slot can be named. -/
theorem lt_slots_of_opcode? {field : List Char} {opcode : UInt16}
    (read : opcode? field = some opcode) : opcode.toNat < slots := by
  -- Both spellings end in the same check of the number.
  have checked {number : Nat}
      (found : (if number < slots then some (UInt16.ofNat number) else none) = some opcode) :
      opcode.toNat < slots := by
    by_cases small : number < slots
    · rw [if_pos small] at found
      cases found
      rwa [UInt16.toNat_ofNat_of_lt' (Nat.lt_trans small (by decide))]
    · rw [if_neg small] at found
      cases found
  unfold opcode? at read
  dsimp only at read
  split at read
  · obtain ⟨number, -, found⟩ := Option.bind_eq_some_iff.mp read
    exact checked found
  · obtain ⟨first, -, rest⟩ := Option.bind_eq_some_iff.mp read
    obtain ⟨second, -, rest⟩ := Option.bind_eq_some_iff.mp rest
    split at rest
    · split at rest
      · exact checked rest
      · split at rest
        · exact checked rest
        · cases rest
    · cases rest

/-- The opcode of a line is named by its first field. -/
theorem opcode?_of_readFields {fields : List (List Char)} {opcode : UInt16} {entry : CycleEntry}
    (read : readFields fields = .ok (opcode, entry)) :
    ∃ field, opcode? field = some opcode := by
  unfold readFields at read
  split at read
  · cases read
  · split at read
    · cases read
    · rename_i found
      split at read
      · cases read
      · split at read
        · cases read
        · split at read
          · cases read
            exact ⟨_, found⟩
          · split at read
            · cases read
            · split at read
              · cases read
                exact ⟨_, found⟩
              · cases read

theorem lt_slots_of_readLine {line : List Char} {opcode : UInt16} {entry : CycleEntry}
    (read : readLine line = .ok (some (opcode, entry))) : opcode.toNat < slots := by
  unfold readLine at read
  split at read
  · cases read
  · split at read
    · cases read
    · rename_i named fields
      cases read
      obtain ⟨field, found⟩ := opcode?_of_readFields fields
      exact lt_slots_of_opcode? found

/-- Enter one line with its number. -/
def enterLine (table : CycleTable) (number : Nat) (line : List Char) : Except Error CycleTable :=
  match readLine line with
  | .error reason => .error (.cycleTable number reason)
  | .ok none => .ok table
  | .ok (some (opcode, entry)) => .ok (table.set opcode entry)

theorem setLines_cons (table : CycleTable) (number : Nat) (line : List Char)
    (rest : List (List Char)) :
    table.setLines number (line :: rest) =
      table.enterLine number line >>= fun entered => entered.setLines (number + 1) rest := by
  rw [setLines, enterLine, readLine]
  by_cases silent : (content line).isEmpty = true
  · rw [if_pos silent, if_pos silent]
    rfl
  · rw [if_neg silent, if_neg silent]
    cases readFields (Text.words (content line)) with
    | error flaw => rfl
    | ok named => rfl

/-- Lines are entered part by part, and the numbers go on. -/
theorem setLines_append (table : CycleTable) (number : Nat) (first second : List (List Char)) :
    table.setLines number (first ++ second) =
      table.setLines number first >>= fun entered =>
        entered.setLines (number + first.length) second := by
  induction first generalizing table number with
  | nil => rfl
  | cons line rest ih =>
      rw [List.cons_append, setLines_cons, setLines_cons, List.length_cons]
      cases table.enterLine number line with
      | error failure => rfl
      | ok entered =>
          rw [ok_bind, ok_bind, ih, Nat.add_right_comm, Nat.add_assoc]

/-- The line at position `i` is the first one that cannot be read, for this reason. -/
structure FirstFlaw (lines : List (List Char)) (i : Nat) (reason : String) : Prop where
  flawed : ∃ line, lines[i]? = some line ∧ readLine line = .error reason
  first : ∀ j < i, ∀ line, lines[j]? = some line → ∃ said, readLine line = .ok said

theorem firstFlaw_cons_zero {line : List Char} {rest : List (List Char)} {reason : String} :
    FirstFlaw (line :: rest) 0 reason ↔ readLine line = .error reason := by
  constructor
  · intro flaw
    obtain ⟨_, found, read⟩ := flaw.flawed
    cases found
    exact read
  · intro read
    exact ⟨⟨line, rfl, read⟩, fun j below => absurd below (Nat.not_lt_zero j)⟩

theorem firstFlaw_cons_succ {line : List Char} {rest : List (List Char)} {i : Nat}
    {reason : String} :
    FirstFlaw (line :: rest) (i + 1) reason ↔
      (∃ said, readLine line = .ok said) ∧ FirstFlaw rest i reason := by
  constructor
  · intro flaw
    refine ⟨flaw.first 0 (Nat.succ_pos i) line rfl, flaw.flawed, ?_⟩
    intro j below later found
    exact flaw.first (j + 1) (Nat.succ_lt_succ below) later found
  · rintro ⟨said, flaw⟩
    refine ⟨flaw.flawed, ?_⟩
    intro j below later found
    cases j with
    | zero =>
        cases found
        exact said
    | succ j => exact flaw.first j (Nat.lt_of_succ_lt_succ below) later found

/-- Entering fails exactly at the first flaw. -/
theorem setLines_eq_error_iff {table : CycleTable} {number : Nat} {lines : List (List Char)}
    {failure : Error} :
    table.setLines number lines = .error failure ↔
      ∃ i reason, FirstFlaw lines i reason ∧ failure = .cycleTable (number + i) reason := by
  induction lines generalizing table number with
  | nil =>
      constructor
      · intro failed
        cases failed
      · rintro ⟨i, reason, flaw, -⟩
        obtain ⟨line, found, -⟩ := flaw.flawed
        cases found
  | cons line rest ih =>
      rw [setLines_cons, enterLine]
      cases read : readLine line with
      | error reason =>
          constructor
          · intro failed
            cases failed
            exact ⟨0, reason, firstFlaw_cons_zero.mpr read, rfl⟩
          · rintro ⟨i, otherReason, flaw, same⟩
            cases i with
            | zero =>
                cases read.symm.trans (firstFlaw_cons_zero.mp flaw)
                rw [same]
                rfl
            | succ i =>
                obtain ⟨⟨said, fine⟩, -⟩ := firstFlaw_cons_succ.mp flaw
                cases read.symm.trans fine
      | ok said =>
          have shift (i : Nat) : number + 1 + i = number + (i + 1) := by omega
          -- Whatever the line says, the flaw is one of the rest.
          have later (entered : CycleTable) :
              entered.setLines (number + 1) rest = .error failure ↔
                ∃ i reason, FirstFlaw (line :: rest) i reason ∧
                  failure = .cycleTable (number + i) reason := by
            rw [ih]
            constructor
            · rintro ⟨i, reason, flaw, same⟩
              rw [shift] at same
              exact ⟨i + 1, reason, firstFlaw_cons_succ.mpr ⟨⟨said, read⟩, flaw⟩, same⟩
            · rintro ⟨i, reason, flaw, same⟩
              cases i with
              | zero => cases read.symm.trans (firstFlaw_cons_zero.mp flaw)
              | succ i =>
                  rw [← shift] at same
                  exact ⟨i, reason, (firstFlaw_cons_succ.mp flaw).2, same⟩
          cases said with
          | none => exact later table
          | some named => exact later (table.set named.1 named.2)

/-- What a line says of an opcode. -/
def lineEntry (opcode : UInt16) (line : List Char) : Option CycleEntry :=
  match readLine line with
  | .ok (some (named, entry)) => if named = opcode then some entry else none
  | _ => none

/-- What the last line that names an opcode says of it. -/
def lastEntry (opcode : UInt16) (lines : List (List Char)) : Option CycleEntry :=
  lines.reverse.findSome? (lineEntry opcode)

theorem lastEntry_cons (opcode : UInt16) (line : List Char) (rest : List (List Char)) :
    lastEntry opcode (line :: rest) = (lastEntry opcode rest).or (lineEntry opcode line) := by
  simp [lastEntry, List.findSome?_append]

/-- Once lines have been entered, each opcode has the entry of the last line that names it,
or the one that it had before. -/
theorem get_of_setLines {table after : CycleTable} {number : Nat} {lines : List (List Char)}
    (sized : table.entries.size = slots) (entered : table.setLines number lines = .ok after) :
    after.entries.size = slots ∧
      ∀ opcode, after.get opcode = (lastEntry opcode lines).getD (table.get opcode) := by
  induction lines generalizing table number with
  | nil =>
      cases entered
      exact ⟨sized, fun _ => rfl⟩
  | cons line rest ih =>
      rw [setLines_cons] at entered
      obtain ⟨next, first, others⟩ := bind_eq_ok.mp entered
      rw [enterLine] at first
      cases read : readLine line with
      | error reason =>
          rw [read] at first
          cases first
      | ok said =>
          rw [read] at first
          cases said with
          | none =>
              cases first
              obtain ⟨afterSized, gets⟩ := ih sized others
              refine ⟨afterSized, fun opcode => ?_⟩
              rw [gets, lastEntry_cons, lineEntry, read, Option.or_none]
          | some named =>
              cases first
              have hasSlot : named.1.toNat < table.entries.size := by
                rw [sized]
                exact lt_slots_of_readLine read
              obtain ⟨afterSized, gets⟩ := ih ((size_set _ _ _).trans sized) others
              refine ⟨afterSized, fun opcode => ?_⟩
              rw [gets, get_set hasSlot, lastEntry_cons, lineEntry, read]
              cases lastEntry opcode rest with
              | some entry => rfl
              | none =>
                  by_cases same : named.1 = opcode
                  · simp [same]
                  · simp [same]

/-! ## Texts -/

/-- The lines of a text. -/
def textLines (text : String) : List (List Char) :=
  Text.lines text.toList

theorem size_blank : blank.entries.size = slots :=
  Array.size_replicate

theorem parse_append (first second : String) :
    parse (first ++ "\n" ++ second) = parse first >>= fun table =>
      table.setLines (1 + (first.toList.count '\n' + 1)) (textLines second) := by
  have joined : (first ++ "\n" ++ second).toList = first.toList ++ '\n' :: second.toList := by
    simp
  rw [parse, joined, Text.lines_append, setLines_append, Text.length_lines]
  rfl

/-- A carriage return at the end of a line is no part of its content, whether or not there
is a comment before it. -/
theorem content_append_return (line : List Char) : content (line ++ ['\r']) = content line := by
  rw [content, content, List.takeWhile_append]
  split
  · rename_i whole
    have silent : line.takeWhile (· != '#') = line :=
      (List.takeWhile_prefix _).eq_of_length whole
    rw [silent]
    exact Text.trim_append_singleton rfl line
  · rfl

theorem enterLine_congr {first second : List Char} (same : content first = content second)
    (table : CycleTable) (number : Nat) :
    table.enterLine number first = table.enterLine number second := by
  rw [enterLine, enterLine, readLine, readLine, same]

/-- Entering lines does not depend on how they end. -/
theorem setLines_of_ended {pieces lines : List (List Char)} (ended : Text.Ended pieces lines)
    (table : CycleTable) (number : Nat) :
    table.setLines number pieces = table.setLines number (lines.map Text.withoutEnd) := by
  induction ended generalizing table number with
  | nothing => rfl
  | last unbroken => rw [List.map_singleton, Text.withoutEnd_eq_self unbroken]
  | line line _ ih =>
      have same : content line = content (Text.withoutEnd (line ++ ['\n'])) := by
        rcases Text.withoutEnd_append line with kept | returned
        · rw [kept]
        · have shortened := content_append_return (Text.withoutEnd (line ++ ['\n']))
          rwa [← returned] at shortened
      rw [List.map_cons, setLines_cons, setLines_cons, enterLine_congr same]
      congr 1
      funext entered
      exact ih entered (number + 1)

/-- A text may as well be cut where its lines end: a carriage return before a line feed
belongs to the end of the line, and behind the last end there is no line. -/
theorem parse_eq_setLines_endedLines (text : String) :
    parse text = blank.setLines 1 (Text.endedLines text.toList) :=
  setLines_of_ended (Text.ended_lines _) blank 1

/-- Cycle tables are read line by line.

A text that is put together from two, with a line feed in between, has the first flaw of
the first, with its number, or else that of the second, with a number that goes on where
the first text ended. If neither has a flaw, an opcode has the entry of the last line of
the second text that names it, or else the one that it has by the first text. In
particular the number is that of the first flawed line of a text, and its last line that
names an opcode prevails. -/
theorem parse_is_compositional (first second : String) :
    (∀ number reason, parse first = .error (.cycleTable number reason) →
      parse (first ++ "\n" ++ second) = .error (.cycleTable number reason)) ∧
    (∀ table number reason, parse first = .ok table →
      parse second = .error (.cycleTable number reason) →
        parse (first ++ "\n" ++ second) =
          .error (.cycleTable (first.toList.count '\n' + 1 + number) reason)) ∧
    (∀ table other, parse first = .ok table → parse second = .ok other →
      ∃ both, parse (first ++ "\n" ++ second) = .ok both ∧ both.entries.size = slots ∧
        ∀ opcode, both.get opcode =
          (lastEntry opcode (textLines second)).getD (table.get opcode)) ∧
    (∀ text failure, parse text = .error failure ↔
      ∃ i reason, FirstFlaw (textLines text) i reason ∧ failure = .cycleTable (i + 1) reason) ∧
    (∀ text table, parse text = .ok table →
      ∀ opcode, table.get opcode = (lastEntry opcode (textLines text)).getD .unknown) := by
  refine ⟨?_, ?_, ?_, ?_, ?_⟩
  · intro number reason failed
    rw [parse_append, failed]
    rfl
  · intro table number reason read failed
    obtain ⟨i, otherReason, flaw, same⟩ := setLines_eq_error_iff.mp failed
    cases same
    rw [parse_append, read, ok_bind, setLines_eq_error_iff]
    exact ⟨i, reason, flaw, by congr 1; omega⟩
  · intro table other read otherRead
    have sized := (get_of_setLines size_blank read).1
    rw [parse_append, read, ok_bind]
    cases entered : table.setLines (1 + (first.toList.count '\n' + 1)) (textLines second) with
    | ok both => exact ⟨both, rfl, get_of_setLines sized entered⟩
    | error failure =>
        -- A flaw of the second text would have shown when it was read alone.
        obtain ⟨i, reason, flaw, -⟩ := setLines_eq_error_iff.mp entered
        have failed : parse second = .error (.cycleTable (1 + i) reason) :=
          setLines_eq_error_iff.mpr ⟨i, reason, flaw, rfl⟩
        cases otherRead.symm.trans failed
  · intro text failure
    rw [parse, setLines_eq_error_iff]
    simp only [Nat.add_comm 1]
    rfl
  · intro text table read opcode
    rw [(get_of_setLines size_blank read).2, get_blank]
    rfl

/-- Two lines, followed by a flawed one, and by one that takes an entry back. -/
theorem parse_is_compositional_two_lines :
    parse ("20 3\n21 4" ++ "\n" ++ "\nzz") = .error (.cycleTable 4 "bad opcode in 'zz'") ∧
      parse ("20 3\nzz" ++ "\n" ++ "21") = .error (.cycleTable 2 "bad opcode in 'zz'") ∧
      ∃ both, parse ("20 3\n21 4" ++ "\n" ++ "0x20 0 # gone") = .ok both ∧
        both.get 0x20 = .unknown ∧ both.get 0x21 = ⟨4, 0⟩ := by
  have readable (text : String) (fine : (parse text).toBool = true) :
      ∃ table, parse text = .ok table := by
    cases read : parse text with
    | ok table => exact ⟨table, rfl⟩
    | error failure =>
        rw [read] at fine
        cases fine
  obtain ⟨table, read⟩ := readable "20 3\n21 4" (by decide +kernel)
  obtain ⟨other, readOther⟩ := readable "0x20 0 # gone" (by decide +kernel)
  have flawed : parse "\nzz" = .error (.cycleTable 2 "bad opcode in 'zz'") := by decide +kernel
  have flawedFirst : parse "20 3\nzz" = .error (.cycleTable 2 "bad opcode in 'zz'") := by
    decide +kernel
  have number : "20 3\n21 4".toList.count '\n' + 1 + 2 = 4 := by decide +kernel
  have second := (parse_is_compositional "20 3\n21 4" "\nzz").2.1 _ _ _ read flawed
  have first := (parse_is_compositional "20 3\nzz" "21").1 _ _ flawedFirst
  obtain ⟨-, -, joins, -, prevails⟩ := parse_is_compositional "20 3\n21 4" "0x20 0 # gone"
  obtain ⟨both, readBoth, -, gets⟩ := joins table other read readOther
  rw [number] at second
  refine ⟨second, first, both, readBoth, ?_, ?_⟩
  · rw [gets, prevails _ table read]
    decide +kernel
  · rw [gets, prevails _ table read]
    decide +kernel

end Handheld.CycleTable
