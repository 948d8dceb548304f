/-
# Cycle tables and their written forms

A table is written as bytes, two for each slot, or as text, with a line for each slot about
which something is known. Both loaders do the same work: they enter named entries into a
blank table. Such a list of entries gives the table back as soon as it is true of the table
and leaves out unknown slots only, in whatever order its entries stand.

The text form is a grammar here, not a printer, so that all the freedom of the format is
covered: spellings, spacing, comments, blank lines and both kinds of line ends.
-/

import Handheld.Proofs.CycleTable.Lines
import Handheld.Proofs.CycleTable.Spellings

namespace Handheld.CycleTable

open Digits

/-- Enter a list of named entries, the later ones over the earlier ones. -/
def enterAll (table : CycleTable) (entries : List (UInt16 × CycleEntry)) : CycleTable :=
  entries.foldl (fun table named => table.set named.1 named.2) table

theorem size_enterAll (table : CycleTable) (entries : List (UInt16 × CycleEntry)) :
    (table.enterAll entries).entries.size = table.entries.size := by
  induction entries generalizing table with
  | nil => rfl
  | cons named rest ih => exact (ih _).trans (size_set _ _ _)

/-- The list of entries is true of the table, and leaves out unknown slots only. -/
structure Describes (entries : List (UInt16 × CycleEntry)) (table : CycleTable) : Prop where
  sound : ∀ opcode entry, (opcode, entry) ∈ entries →
    opcode.toNat < slots ∧ table.get opcode = entry
  complete : ∀ opcode, table.get opcode ≠ .unknown → (opcode, table.get opcode) ∈ entries

/-- Entering true entries makes a table agree with the one that they are true of, at every
opcode that they name and at those where it agreed before. -/
theorem get_enterAll {table goal : CycleTable} {entries : List (UInt16 × CycleEntry)}
    (sized : table.entries.size = slots)
    (sound : ∀ opcode entry, (opcode, entry) ∈ entries →
      opcode.toNat < slots ∧ goal.get opcode = entry)
    (opcode : UInt16)
    (settled : (∃ entry, (opcode, entry) ∈ entries) ∨ table.get opcode = goal.get opcode) :
    (table.enterAll entries).get opcode = goal.get opcode := by
  induction entries generalizing table with
  | nil =>
      rcases settled with ⟨entry, inside⟩ | agreed
      · cases inside
      · exact agreed
  | cons named rest ih =>
      obtain ⟨hasSlot, correct⟩ := sound named.1 named.2 List.mem_cons_self
      have updated := get_set (sized.symm ▸ hasSlot) named.2 opcode
      apply ih ((size_set _ _ _).trans sized)
      · intro later entry inside
        exact sound later entry (List.mem_cons_of_mem _ inside)
      · by_cases same : named.1 = opcode
        · right
          rw [updated, if_pos same, ← same, correct]
        · rcases settled with ⟨entry, inside⟩ | agreed
          · rcases List.mem_cons.mp inside with first | later
            · exact absurd (congrArg Prod.fst first).symm same
            · exact .inl ⟨entry, later⟩
          · right
            rw [updated, if_neg same, agreed]

/-- A table is given by the entries of its opcodes. -/
theorem ext_get {table other : CycleTable} (sized : table.entries.size = slots)
    (otherSized : other.entries.size = slots)
    (agree : ∀ opcode, table.get opcode = other.get opcode) : table = other := by
  obtain ⟨entries⟩ := table
  obtain ⟨otherEntries⟩ := other
  congr 1
  apply Array.ext (sized.trans otherSized.symm)
  intro i inside otherInside
  have small : i < UInt16.size := Nat.lt_trans (sized ▸ inside) (by decide)
  have same := agree (UInt16.ofNat i)
  rw [get, get, UInt16.toNat_ofNat_of_lt' small, Array.getD_eq_getD_getElem?,
    Array.getD_eq_getD_getElem?, Array.getElem?_eq_getElem inside,
    Array.getElem?_eq_getElem otherInside] at same
  exact same

theorem Describes.enterAll_eq {entries : List (UInt16 × CycleEntry)} {table : CycleTable}
    (describes : Describes entries table) (sized : table.entries.size = slots) :
    blank.enterAll entries = table := by
  apply ext_get ((size_enterAll _ _).trans size_blank) sized
  intro opcode
  apply get_enterAll size_blank describes.sound
  by_cases unknown : table.get opcode = .unknown
  · right
    rw [get_blank, unknown]
  · exact .inl ⟨_, describes.complete opcode unknown⟩

/-- The two bytes of a slot. -/
def slotBytes (entry : CycleEntry) : List UInt8 :=
  [entry.cycles, entry.branchCycles]

/-- The flat form: the bytes of every slot, in order. -/
def flat (table : CycleTable) : List UInt8 :=
  table.entries.toList.flatMap slotBytes

/-- Entries with the opcodes from `start` on. -/
def numbered (start : Nat) (entries : List CycleEntry) : List (UInt16 × CycleEntry) :=
  (entries.zipIdx start).map fun counted => (UInt16.ofNat counted.2, counted.1)

theorem length_flat (table : CycleTable) : table.flat.length = 2 * table.entries.size := by
  simp [flat, List.length_flatMap, slotBytes, Nat.mul_comm]

/-- An even number of bytes is taken from the front of a flat form slot by slot. -/
theorem take_flat (entries : List CycleEntry) (count : Nat) :
    (entries.flatMap slotBytes).take (2 * count) = (entries.take count).flatMap slotBytes := by
  induction entries generalizing count with
  | nil => simp
  | cons entry rest ih =>
      cases count with
      | zero => rfl
      | succ count => simp [slotBytes, Nat.mul_succ, ih]

theorem setPairs_flat (table : CycleTable) (start : Nat) (entries : List CycleEntry) :
    table.setPairs start (entries.flatMap slotBytes) = table.enterAll (numbered start entries) := by
  induction entries generalizing table start with
  | nil => rfl
  | cons entry rest ih => exact ih _ _

theorem mem_numbered {entries : List CycleEntry} (few : entries.length ≤ UInt16.size)
    {opcode : UInt16} {entry : CycleEntry} :
    (opcode, entry) ∈ numbered 0 entries ↔ entries[opcode.toNat]? = some entry := by
  simp only [numbered, List.mem_map, Prod.exists, Prod.mk.injEq, List.mem_zipIdx_iff_getElem?]
  constructor
  · rintro ⟨_, i, found, rfl, rfl⟩
    have inside : i < entries.length := (List.getElem?_eq_some_iff.mp found).1
    rwa [UInt16.toNat_ofNat_of_lt' (Nat.lt_of_lt_of_le inside few)]
  · intro found
    exact ⟨entry, opcode.toNat, found, UInt16.ofNat_toNat, rfl⟩

section Sized

variable {table : CycleTable} (sized : table.entries.size = slots)
include sized

theorem getElem?_entries_eq_some_iff {opcode : UInt16} {entry : CycleEntry} :
    table.entries.toList[opcode.toNat]? = some entry ↔
      opcode.toNat < slots ∧ table.get opcode = entry := by
  rw [Array.getElem?_toList, ← sized, get, Array.getD_eq_getD_getElem?]
  by_cases inside : opcode.toNat < table.entries.size
  · simp [inside]
  · simp [inside]

theorem lt_slots_of_known {opcode : UInt16} (known : table.get opcode ≠ .unknown) :
    opcode.toNat < slots := by
  by_contra outside
  apply known
  rw [get, Array.getD_eq_getD_getElem?, Array.getElem?_eq_none (by omega)]
  rfl

/-- The first slots describe a table, if nothing is known about the others. -/
theorem describes_numbered {count : Nat}
    (covers : ∀ opcode, table.get opcode ≠ .unknown → opcode.toNat < count) :
    Describes (numbered 0 (table.entries.toList.take count)) table := by
  have few : (table.entries.toList.take count).length ≤ UInt16.size := by
    rw [List.length_take, Array.length_toList, sized]
    exact (Nat.min_le_right _ _).trans (by decide)
  constructor
  · intro opcode entry inside
    rw [mem_numbered few, List.getElem?_take] at inside
    by_cases reached : opcode.toNat < count
    · rw [if_pos reached] at inside
      exact (getElem?_entries_eq_some_iff sized).mp inside
    · rw [if_neg reached] at inside
      cases inside
  · intro opcode known
    rw [mem_numbered few, List.getElem?_take, if_pos (covers opcode known),
      getElem?_entries_eq_some_iff sized]
    exact ⟨lt_slots_of_known sized known, rfl⟩

/-- Any even number of bytes from the front of a flat form gives the table back, if it
reaches all the slots about which something is known. -/
theorem ofFlat_of_front {bytes : Array UInt8} (front : bytes.toList <+: table.flat)
    (even : bytes.size % 2 = 0)
    (covers : ∀ opcode, table.get opcode ≠ .unknown → 2 * opcode.toNat < bytes.size) :
    ofFlat bytes = .ok table := by
  obtain ⟨count, halves⟩ := Nat.dvd_of_mod_eq_zero even
  have short : bytes.size ≤ 2 * slots := by
    rw [← sized, ← length_flat]
    exact front.length_le
  have slotwise : bytes.toList = (table.entries.toList.take count).flatMap slotBytes := by
    rw [← take_flat, ← halves]
    exact List.prefix_iff_eq_take.mp front
  have describes : Describes (numbered 0 (table.entries.toList.take count)) table := by
    apply describes_numbered sized
    intro opcode known
    have reached := covers opcode known
    omega
  rw [ofFlat, if_neg (by omega), slotwise, setPairs_flat, describes.enterAll_eq sized]

end Sized

/-! ## Lines -/

/-- Blanks within a line. -/
def Spacing (text : List Char) : Prop :=
  ∀ c ∈ text, Text.isBlank c = true ∧ c ≠ '\n'

instance (text : List Char) : Decidable (Spacing text) :=
  List.decidableBAll _ text

/-- Nothing, or the sign that starts a comment and the rest of the line. -/
def IsComment (text : List Char) : Prop :=
  text = [] ∨ ∃ words, text = '#' :: words ∧ '\n' ∉ words

/-- The text is made of these fields, with gaps in between. -/
inductive Spaced : List (List Char) → List Char → Prop
  | last (field : List Char) : Spaced [field] field
  | field (field : List Char) {gap text : List Char} {rest : List (List Char)}
      (spacing : Spacing gap) (wide : gap ≠ []) (others : Spaced rest text) :
      Spaced (field :: rest) (field ++ gap ++ text)

/-- The fields that state the entry of an opcode. The branch count may be left out when it
is zero. -/
inductive States (opcode : UInt16) (entry : CycleEntry) : List (List Char) → Prop
  | full {name cycles branchCycles : List Char} (spells : Spells opcode name)
      (first : IsNumeral 10 entry.cycles.toNat cycles)
      (second : IsNumeral 10 entry.branchCycles.toNat branchCycles) :
      States opcode entry [name, cycles, branchCycles]
  | short {name cycles : List Char} (spells : Spells opcode name)
      (first : IsNumeral 10 entry.cycles.toNat cycles) (none : entry.branchCycles = 0) :
      States opcode entry [name, cycles]

/-- The lines that say nothing, and those that state an entry. -/
inductive IsLine : Option (UInt16 × CycleEntry) → List Char → Prop
  | nothing {blanks comment : List Char} (spacing : Spacing blanks) (remark : IsComment comment) :
      IsLine none (blanks ++ comment)
  | entry {opcode : UInt16} {entry : CycleEntry} {fields : List (List Char)}
      {before body after comment : List Char} (states : States opcode entry fields)
      (spaced : Spaced fields body) (spacing : Spacing before) (spacingAfter : Spacing after)
      (remark : IsComment comment) :
      IsLine (some (opcode, entry)) (before ++ body ++ after ++ comment)

theorem Spacing.allBlank {text : List Char} (spacing : Spacing text) : Text.AllBlank text :=
  fun c inside => (spacing c inside).1

theorem Spacing.comment_notMem {text : List Char} (spacing : Spacing text) : '#' ∉ text := by
  intro inside
  exact absurd (spacing '#' inside).1 (by decide)

theorem Spacing.feed_notMem {text : List Char} (spacing : Spacing text) : '\n' ∉ text :=
  fun inside => (spacing '\n' inside).2 rfl

theorem Solid.comment_notMem {field : List Char} (solid : Solid field) : '#' ∉ field :=
  fun inside => (solid.plain '#' inside).2 rfl

theorem Solid.feed_notMem {field : List Char} (solid : Solid field) : '\n' ∉ field := by
  intro inside
  exact absurd (solid.plain '\n' inside).1 (by decide)

/-- A character that is neither in gaps nor in the fields is not in the text. -/
theorem Spaced.notMem {fields : List (List Char)} {text : List Char} (spaced : Spaced fields text)
    {c : Char} (gaps : ∀ {gap}, Spacing gap → c ∉ gap) (inFields : ∀ field ∈ fields, c ∉ field) :
    c ∉ text := by
  induction spaced with
  | last field => exact inFields field List.mem_cons_self
  | field field spacing _ _ ih =>
      have rest := ih fun later inside => inFields later (List.mem_cons_of_mem _ inside)
      simp [inFields field List.mem_cons_self, gaps spacing, rest]

namespace Spaced

variable {fields : List (List Char)} {text : List Char} (spaced : Spaced fields text)
  (solid : ∀ field ∈ fields, Solid field)
include spaced solid

/-- Fields that are set apart by gaps are the words of the text. -/
theorem words_eq : Text.words text = fields := by
  induction spaced with
  | last field =>
      have only := solid field List.mem_cons_self
      exact Text.words_eq_singleton only.ne_nil fun c inside => (only.plain c inside).1
  | field field spacing wide _ ih =>
      have first := solid field List.mem_cons_self
      rw [Text.words_append_gap spacing.allBlank wide,
        Text.words_eq_singleton first.ne_nil fun c inside => (first.plain c inside).1,
        ih fun later inside => solid later (List.mem_cons_of_mem _ inside)]
      rfl

theorem comment_notMem : '#' ∉ text :=
  spaced.notMem Spacing.comment_notMem fun field inside => (solid field inside).comment_notMem

theorem feed_notMem : '\n' ∉ text :=
  spaced.notMem Spacing.feed_notMem fun field inside => (solid field inside).feed_notMem

end Spaced

namespace States

variable {opcode : UInt16} {entry : CycleEntry} {fields : List (List Char)}
  (states : States opcode entry fields)
include states

theorem solid : ∀ field ∈ fields, Solid field := by
  have decimal {n : Nat} {field : List Char} : IsNumeral 10 n field → Solid field :=
    solid_of_isNumeral (by decide) (by decide)
  cases states with
  | full spells first second => simp [spells.solid, decimal first, decimal second]
  | short spells first _ => simp [spells.solid, decimal first]

theorem readFields_eq : readFields fields = .ok (opcode, entry) := by
  obtain ⟨cycles, branchCycles⟩ := entry
  cases states with
  | full spells first second =>
      simp [readFields, spells.opcode?_eq, count?_eq first, count?_eq second]
  | short spells first none =>
      cases none
      simp [readFields, spells.opcode?_eq, count?_eq first]

end States

/-- A comment is no part of the line's content. -/
theorem content_append_comment {text comment : List Char} (silent : '#' ∉ text)
    (remark : IsComment comment) : content (text ++ comment) = Text.trim text := by
  have before : ∀ c ∈ text, (c != '#') = true := fun c inside =>
    bne_iff_ne.mpr (ne_of_mem_of_not_mem inside silent)
  have stops : comment.takeWhile (· != '#') = [] := by
    rcases remark with rfl | ⟨words, rfl, -⟩
    · rfl
    · simp
  rw [content, List.takeWhile_append_of_pos before, stops, List.append_nil]

namespace IsLine

variable {said : Option (UInt16 × CycleEntry)} {line : List Char} (isLine : IsLine said line)
include isLine

/-- A line is read as what it says. -/
theorem readLine_eq : readLine line = .ok said := by
  cases isLine with
  | nothing spacing remark =>
      rw [readLine, content_append_comment spacing.comment_notMem remark,
        Text.trim_eq_nil spacing.allBlank]
      rfl
  | @entry opcode entry fields before body after comment states spaced spacing spacingAfter remark =>
      have silent : '#' ∉ before ++ body ++ after := by
        simp [spacing.comment_notMem, spaced.comment_notMem states.solid,
          spacingAfter.comment_notMem]
      have words : Text.words (Text.trim (before ++ body ++ after)) = fields := by
        rw [Text.words_trim, Text.words_append_blank spacingAfter.allBlank,
          Text.words_blank_append spacing.allBlank, spaced.words_eq states.solid]
      have nonempty : ¬ (Text.trim (before ++ body ++ after)).isEmpty = true := by
        intro empty
        rw [List.isEmpty_iff.mp empty, Text.words_nil] at words
        subst words
        cases states
      rw [readLine, content_append_comment silent remark, if_neg nonempty, words,
        states.readFields_eq]

theorem feed_notMem : '\n' ∉ line := by
  have unbroken {comment : List Char} (remark : IsComment comment) : '\n' ∉ comment := by
    rcases remark with rfl | ⟨words, rfl, unbroken⟩
    · simp
    · simp [unbroken]
  cases isLine with
  | nothing spacing remark => simp [spacing.feed_notMem, unbroken remark]
  | entry states spaced spacing spacingAfter remark =>
      simp [spacing.feed_notMem, spaced.feed_notMem states.solid, spacingAfter.feed_notMem,
        unbroken remark]

/-- A carriage return at the end of a line is one more blank, or a part of its comment. -/
theorem carriageReturn : IsLine said (line ++ ['\r']) := by
  have widened {blanks : List Char} (spacing : Spacing blanks) : Spacing (blanks ++ ['\r']) := by
    intro c inside
    rcases List.mem_append.mp inside with old | new
    · exact spacing c old
    · rw [List.mem_singleton.mp new]
      decide
  have remarked {words : List Char} (unbroken : '\n' ∉ words) :
      IsComment ('#' :: (words ++ ['\r'])) := .inr ⟨_, rfl, by simp [unbroken]⟩
  cases isLine with
  | @nothing blanks comment spacing remark =>
      rcases remark with rfl | ⟨words, rfl, unbroken⟩
      · simpa using nothing (widened spacing) (.inl rfl)
      · simpa using nothing spacing (remarked unbroken)
  | @entry opcode entry fields before body after comment states spaced spacing spacingAfter remark =>
      rcases remark with rfl | ⟨words, rfl, unbroken⟩
      · simpa using IsLine.entry states spaced spacing (widened spacingAfter) (.inl rfl)
      · simpa using IsLine.entry states spaced spacing spacingAfter (remarked unbroken)

end IsLine

/-! ## Texts -/

/-- The texts whose lines state these entries, in this order. -/
inductive Lists : List (UInt16 × CycleEntry) → List Char → Prop
  | last {said : Option (UInt16 × CycleEntry)} {line : List Char} (isLine : IsLine said line) :
      Lists said.toList line
  | line {said : Option (UInt16 × CycleEntry)} {line ending text : List Char}
      {rest : List (UInt16 × CycleEntry)} (isLine : IsLine said line)
      (ends : ending ∈ [['\n'], ['\r', '\n']]) (others : Lists rest text) :
      Lists (said.toList ++ rest) (line ++ ending ++ text)

theorem enterLine_of_isLine {said : Option (UInt16 × CycleEntry)} {line : List Char}
    (isLine : IsLine said line) (table : CycleTable) (number : Nat) :
    table.enterLine number line = .ok (table.enterAll said.toList) := by
  rw [enterLine, isLine.readLine_eq]
  cases said with
  | none => rfl
  | some named => rfl

/-- The entries that a text states are entered. -/
theorem setLines_of_lists {entries : List (UInt16 × CycleEntry)} {text : List Char}
    (lists : Lists entries text) (table : CycleTable) (number : Nat) :
    table.setLines number (Text.lines text) = .ok (table.enterAll entries) := by
  induction lists generalizing table number with
  | last isLine =>
      rw [Text.lines_eq_singleton isLine.feed_notMem, setLines_cons, enterLine_of_isLine isLine]
      rfl
  | @line said line ending text rest isLine ends _ ih =>
      -- The carriage return of a line end counts as part of the line.
      obtain ⟨whole, wholeIsLine, split⟩ : ∃ whole, IsLine said whole ∧
          line ++ ending ++ text = whole ++ '\n' :: text := by
        simp only [List.mem_cons, List.not_mem_nil, or_false] at ends
        rcases ends with rfl | rfl
        · exact ⟨line, isLine, by simp⟩
        · exact ⟨line ++ ['\r'], isLine.carriageReturn, by simp⟩
      rw [split, Text.lines_append, Text.lines_eq_singleton wholeIsLine.feed_notMem,
        List.singleton_append, setLines_cons, enterLine_of_isLine wholeIsLine, Checked.ok_bind, ih,
        enterAll, enterAll, enterAll, List.foldl_append]

/-- The slots about which something is known, with their entries. -/
def listing (table : CycleTable) : List (UInt16 × CycleEntry) :=
  (numbered 0 table.entries.toList).filter (·.2 ≠ .unknown)

theorem mem_listing {table : CycleTable} (sized : table.entries.size = slots) {opcode : UInt16}
    {entry : CycleEntry} :
    (opcode, entry) ∈ table.listing ↔
      (opcode.toNat < slots ∧ table.get opcode = entry) ∧ entry ≠ .unknown := by
  have few : table.entries.toList.length ≤ UInt16.size := by
    rw [Array.length_toList, sized, slots]
    decide
  rw [listing, List.mem_filter, mem_numbered few, getElem?_entries_eq_some_iff sized,
    decide_eq_true_iff]

/-- The known slots describe a table, in any order. -/
theorem describes_of_perm_listing {table : CycleTable} (sized : table.entries.size = slots)
    {entries : List (UInt16 × CycleEntry)} (order : entries.Perm table.listing) :
    Describes entries table := by
  constructor
  · intro opcode entry inside
    exact ((mem_listing sized).mp (order.mem_iff.mp inside)).1
  · intro opcode known
    exact order.mem_iff.mpr ((mem_listing sized).mpr ⟨⟨lt_slots_of_known sized known, rfl⟩, known⟩)

/-- Entries of opcodes that have a slot can be listed. -/
theorem exists_lists {entries : List (UInt16 × CycleEntry)}
    (haveSlots : ∀ opcode entry, (opcode, entry) ∈ entries → opcode.toNat < slots) :
    ∃ text, Lists entries text := by
  have gap : Spacing [' '] := by decide
  have spacing : Spacing [] := by decide
  induction entries with
  | nil => exact ⟨[], .last (.nothing spacing (.inl rfl))⟩
  | cons named rest ih =>
      obtain ⟨opcode, entry⟩ := named
      obtain ⟨text, others⟩ :=
        ih fun later entry inside => haveSlots later entry (List.mem_cons_of_mem _ inside)
      have spells : Spells opcode (Nat.toDigits 16 opcode.toNat) :=
        .number (haveSlots opcode entry List.mem_cons_self)
          ⟨[], _, List.mem_cons_self, rfl, isNumeral_toDigits 16 _⟩
      have states := States.full spells (isNumeral_toDigits 10 entry.cycles.toNat)
        (isNumeral_toDigits 10 entry.branchCycles.toNat)
      have spaced := Spaced.field (Nat.toDigits 16 opcode.toNat) gap (by decide)
        (.field (Nat.toDigits 10 entry.cycles.toNat) gap (by decide)
          (.last (Nat.toDigits 10 entry.branchCycles.toNat)))
      exact ⟨_, .line (.entry states spaced spacing spacing (.inl rfl)) List.mem_cons_self others⟩

/-- Both written forms give a table back.

The flat form has two bytes for every slot. It gives the table back as a whole, and so does
any even number of its bytes from the front that reaches all the slots about which something
is known; a flat form is refused exactly if its length is odd, or more than the slots need.

There are texts that list the known slots of a table, in any order, and every one of them
gives the table back, however its fields are spelled and spaced, and whatever comments,
blank lines and line ends it has. -/
theorem written_forms_give_the_table_back :
    (∀ table : CycleTable, table.entries.size = slots →
      table.flat.length = 1536 ∧
      ofFlat table.flat.toArray = .ok table ∧
      (∀ bytes : Array UInt8, bytes.toList <+: table.flat → bytes.size % 2 = 0 →
        (∀ opcode, table.get opcode ≠ .unknown → 2 * opcode.toNat < bytes.size) →
          ofFlat bytes = .ok table) ∧
      (∀ entries, entries.Perm table.listing →
        (∃ text : String, Lists entries text.toList) ∧
        ∀ text : String, Lists entries text.toList → parse text = .ok table)) ∧
    (∀ bytes : Array UInt8, (∃ failure, ofFlat bytes = .error failure) ↔
      bytes.size % 2 = 1 ∨ 1536 < bytes.size) := by
  constructor
  · intro table sized
    have length : table.flat.length = 1536 := by rw [length_flat, sized, slots]
    refine ⟨length, ?_, ?_, ?_⟩
    · apply ofFlat_of_front sized
      · exact List.prefix_rfl
      · rw [List.size_toArray, length]
      · intro opcode known
        have hasSlot := lt_slots_of_known sized known
        rw [slots] at hasSlot
        rw [List.size_toArray, length]
        omega
    · intro bytes front even covers
      exact ofFlat_of_front sized front even covers
    · intro entries order
      have describes := describes_of_perm_listing sized order
      constructor
      · obtain ⟨text, lists⟩ := exists_lists fun opcode entry inside =>
          (describes.sound opcode entry inside).1
        exact ⟨String.ofList text, by rwa [String.toList_ofList]⟩
      · intro text lists
        rw [parse, setLines_of_lists lists, describes.enterAll_eq sized]
  · intro bytes
    rw [ofFlat, slots]
    by_cases refused : bytes.size % 2 ≠ 0 ∨ 2 * 0x300 < bytes.size
    · rw [if_pos refused]
      exact ⟨fun _ => by omega, fun _ => ⟨_, rfl⟩⟩
    · rw [if_neg refused]
      constructor
      · rintro ⟨failure, failed⟩
        cases failed
      · intro wrong
        omega

/-- Two known slots, in the reverse of their order, and the flat form up to the second. -/
theorem written_forms_give_the_table_back_sparse :
    let table := (blank.set 0x20 ⟨3, 0⟩).set 0x1A2 ⟨7, 12⟩
    ofFlat (table.flat.take 0x346).toArray = .ok table ∧
      parse "CE:a2  07\t12\r\n\n 0x0020 3 # short" = .ok table ∧
      ∃ failure, ofFlat #[7, 12, 3] = .error failure := by
  intro table
  have known : table.listing = [(0x20, ⟨3, 0⟩), (0x1A2, ⟨7, 12⟩)] := by decide +kernel
  have size : table.entries.size = slots := by decide +kernel
  obtain ⟨loads, refuses⟩ := written_forms_give_the_table_back
  obtain ⟨length, -, fronts, texts⟩ := loads table size
  have none : Spacing [] := by decide
  have long : IsLine (some (0x1A2, ⟨7, 12⟩)) "CE:a2  07\t12".toList := by
    have page : IsHexadecimal 0xCE ['C', 'E'] :=
      ⟨[], _, List.mem_cons_self, rfl, 0, _, rfl, by decide⟩
    have byte : IsHexadecimal 0xA2 ['a', '2'] :=
      ⟨[], _, List.mem_cons_self, rfl, 0, _, rfl, by decide⟩
    have spells : Spells 0x1A2 _ := .paged (by decide) (by decide) rfl page byte
    have states : States 0x1A2 ⟨7, 12⟩ [_, ['0', '7'], ['1', '2']] :=
      .full spells ⟨1, ['7'], rfl, by decide⟩ ⟨0, _, rfl, by decide⟩
    have gap : Spacing [' ', ' '] := by decide
    have tab : Spacing ['\t'] := by decide
    exact .entry states (.field _ gap (by decide) (.field _ tab (by decide) (.last _))) none none
      (.inl rfl)
  have short : IsLine (some (0x20, ⟨3, 0⟩)) " 0x0020 3 # short".toList := by
    have spells : Spells 0x20 _ :=
      .number (by decide) ⟨['0', 'x'], _, by decide, rfl, 2, ['2', '0'], rfl, by decide⟩
    have states : States 0x20 ⟨3, 0⟩ [_, ['3']] := .short spells ⟨0, _, rfl, by decide⟩ rfl
    have gap : Spacing [' '] := by decide
    exact .entry states (.field _ gap (by decide) (.last _)) gap gap (.inr ⟨_, rfl, by decide⟩)
  have lists : Lists [(0x1A2, ⟨7, 12⟩), (0x20, ⟨3, 0⟩)]
      "CE:a2  07\t12\r\n\n 0x0020 3 # short".toList :=
    .line long (.tail _ List.mem_cons_self)
      (.line (.nothing none (.inl rfl)) List.mem_cons_self (.last short))
  have reach : (table.flat.take 0x346).toArray.size = 0x346 := by
    rw [List.size_toArray, List.length_take, length]
    rfl
  refine ⟨fronts _ ?_ ?_ ?_, (texts _ ?_).2 _ lists, (refuses _).mpr (.inl rfl)⟩
  · rw [List.toList_toArray]
    exact List.take_prefix _ _
  · rw [reach]
  · intro opcode informed
    have listed := (mem_listing size).mpr ⟨⟨lt_slots_of_known size informed, rfl⟩, informed⟩
    rw [known] at listed
    rw [reach]
    simp only [List.mem_cons, List.not_mem_nil, or_false, Prod.mk.injEq] at listed
    rcases listed with ⟨rfl, -⟩ | ⟨rfl, -⟩
    · decide
    · decide
  · rw [known]
    exact .swap _ _ _

end Handheld.CycleTable
