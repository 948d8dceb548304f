/-
# Cycle tables

For every opcode a table says how many cycles an instruction takes, and how
many when it branches. Opcodes are numbered 0x000 to 0x2FF: the plain ones, then
the page behind the prefix byte CE, then the page behind CF.

A table is loaded from bytes, two per slot, or from text. In the text form a
line is `opcode cycles [branch cycles]`; the opcode is hexadecimal, either its
number or `prefix:opcode`; the counts are decimal; `#` starts a comment. Later
lines override earlier ones, and the first malformed line is reported.
-/

import Handheld.Error
import Handheld.Text.Blank

namespace Handheld

/-- The number of an instruction's opcode, from its leading bytes. -/
def extendedOpcode? : List UInt8 → Option UInt16
  | [] => none
  | [opcode] => some opcode.toUInt16
  | first :: second :: _ =>
    if first = 0xCE then some (0x100 ||| second.toUInt16)
    else if first = 0xCF then some (0x200 ||| second.toUInt16)
    else some first.toUInt16

/-- How long an instruction takes. No branch variant is written as zero. -/
structure CycleEntry where
  cycles : UInt8
  branchCycles : UInt8
  deriving DecidableEq, Repr, Inhabited

namespace CycleEntry

/-- An opcode about which nothing is known. -/
def unknown : CycleEntry := ⟨0, 0⟩

/-- Whether there is anything to compare with. -/
def isKnown (entry : CycleEntry) : Bool :=
  entry.cycles != 0

/-- Whether an observed number of cycles is one of the expected ones. -/
def admits (entry : CycleEntry) (observed : UInt8) : Bool :=
  observed == entry.cycles || (entry.branchCycles != 0 && observed == entry.branchCycles)

/-- The expected numbers, divided by a slash. -/
def text (entry : CycleEntry) : String :=
  if entry.branchCycles = 0 then s!"{entry.cycles}"
  else s!"{entry.cycles}/{entry.branchCycles}"

end CycleEntry

/-- A cycle table. A restored one may have any number of slots. -/
structure CycleTable where
  entries : Array CycleEntry
  deriving DecidableEq

namespace CycleTable

/-- The number of opcodes. -/
def slots : Nat := 0x300

/-- Nothing is known. -/
def blank : CycleTable :=
  ⟨.replicate slots .unknown⟩

/-- Fill the slot of an opcode; an opcode without a slot is ignored. -/
def set (table : CycleTable) (opcode : UInt16) (entry : CycleEntry) : CycleTable :=
  ⟨table.entries.setIfInBounds opcode.toNat entry⟩

/-- The entry of an opcode. -/
def get (table : CycleTable) (opcode : UInt16) : CycleEntry :=
  table.entries.getD opcode.toNat .unknown

/-- The number of opcodes about which something is known. -/
def known (table : CycleTable) : Nat :=
  table.entries.countP CycleEntry.isKnown

/-- Fill the slots from `opcode` on with pairs of bytes. -/
def setPairs (table : CycleTable) (opcode : Nat) : List UInt8 → CycleTable
  | cycles :: branchCycles :: rest =>
    setPairs (table.set (UInt16.ofNat opcode) ⟨cycles, branchCycles⟩) (opcode + 1) rest
  | _ => table

/-- Two bytes per slot, in the order of the opcodes. The slots that a short form
leaves out are unknown. -/
def ofFlat (bytes : Array UInt8) : Except Error CycleTable :=
  if bytes.size % 2 ≠ 0 ∨ 2 * slots < bytes.size then
    .error (.cycleTable 0 s!"flat table of {bytes.size} bytes")
  else .ok (blank.setPairs 0 bytes.toList)

/-- What is wrong with a line. -/
inductive LineFlaw
  | badOpcode
  | badCycleCount
  | badBranchCycleCount
  | trailingFields
  deriving DecidableEq, Repr

/-- The wording of a flaw in a line with this content. -/
def LineFlaw.reason (flaw : LineFlaw) (content : List Char) : String :=
  let problem := match flaw with
    | .badOpcode => "bad opcode"
    | .badCycleCount => "bad cycle count"
    | .badBranchCycleCount => "bad branch cycle count"
    | .trailingFields => "trailing fields"
  problem ++ " in '" ++ String.ofList content ++ "'"

/-- Drop every leading `0x`, for the given spelling of the letter. -/
def dropMarks (letter : Char) : List Char → List Char
  | '0' :: c :: rest => if c = letter then dropMarks letter rest else '0' :: c :: rest
  | text => text

/-- A hexadecimal number of 16 bits, with or without a mark in front. -/
def hexadecimal? (field : List Char) : Option Nat :=
  Digits.below? 0x10000 16 (dropMarks 'X' (dropMarks 'x' field))

/-- The opcode that a field names, by number or by prefix and byte. -/
def opcode? (field : List Char) : Option UInt16 := do
  let opcode ←
    match field.dropWhile (· != ':') with
    | [] => hexadecimal? field
    | _ :: second => do
      let first ← hexadecimal? (field.takeWhile (· != ':'))
      let second ← hexadecimal? second
      if second < 0x100 then
        if first = 0xCE then some (0x100 + second)
        else if first = 0xCF then some (0x200 + second)
        else none
      else none
  if opcode < slots then some (UInt16.ofNat opcode) else none

/-- A decimal number of 8 bits. -/
def count? (field : List Char) : Option UInt8 :=
  (Digits.below? 0x100 10 field).map UInt8.ofNat

/-- Read the fields of a line, reporting the leftmost flaw. -/
def readFields : List (List Char) → Except LineFlaw (UInt16 × CycleEntry)
  | [] => .error .badOpcode
  | opcodeField :: fields =>
    match opcode? opcodeField with
    | none => .error .badOpcode
    | some opcode =>
      match fields with
      | [] => .error .badCycleCount
      | cyclesField :: fields =>
        match count? cyclesField with
        | none => .error .badCycleCount
        | some cycles =>
          match fields with
          | [] => .ok (opcode, ⟨cycles, 0⟩)
          | branchField :: fields =>
            match count? branchField with
            | none => .error .badBranchCycleCount
            | some branchCycles =>
              if fields.isEmpty then .ok (opcode, ⟨cycles, branchCycles⟩)
              else .error .trailingFields

/-- A line without its comment and outer blanks. -/
def content (line : List Char) : List Char :=
  Text.trim (line.takeWhile (· != '#'))

/-- Enter lines into a table, the first of them having number `number`. -/
def setLines (table : CycleTable) (number : Nat) : List (List Char) → Except Error CycleTable
  | [] => .ok table
  | line :: rest =>
    let content := content line
    if content.isEmpty then setLines table (number + 1) rest
    else
      match readFields (Text.words content) with
      | .error flaw => .error (.cycleTable number (flaw.reason content))
      | .ok (opcode, entry) => setLines (table.set opcode entry) (number + 1) rest

/-- Read the text form. -/
def parse (text : String) : Except Error CycleTable :=
  blank.setLines 1 (Text.lines text.toList)

end CycleTable

end Handheld
