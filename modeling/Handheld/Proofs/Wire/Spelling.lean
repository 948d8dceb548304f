/-
# What bytes spell

Bytes spell a value when a reader that starts at them finds the value and stops
right behind them, whatever follows. Spellings compose along the format: two in a
row spell a pair, a length and that many items spell a sequence.

A value can have several spellings. Besides zero groups at the end of a number,
which the writer never produces, the entries of a tally may come in any order.
-/

import Mathlib.Algebra.Group.Nat.Defs
import Handheld.Proofs.Audit.Tally
import Handheld.Wire.Records

namespace Handheld.Wire

open Checked

variable {α β : Type}

/-- Reading at these bytes gives the value and leaves whatever follows them. -/
def Spells [Wire α] (bytes : List UInt8) (value : α) : Prop :=
  ∀ rest, Wire.read (bytes ++ rest) = .ok (value, rest)

/-- A type all of whose values are spelled by what is written for them. -/
class Faithful (α : Type) [Wire α] : Prop where
  spells : ∀ value : α, Spells (Wire.write value) value

theorem writeGroups_of_lt {n : Nat} (small : n < 128) : writeGroups n = [UInt8.ofNat n] := by
  rw [writeGroups, dif_pos small]

theorem writeGroups_of_le {n : Nat} (large : 128 ≤ n) :
    writeGroups n = UInt8.ofNat (n % 128 + 128) :: writeGroups (n / 128) := by
  rw [writeGroups, dif_neg (Nat.not_lt.mpr large)]

/-- A number that fits the groups is read back. With `groups` groups before the
last one, and that one at most `lastMax`, the numbers that fit are those below
`(lastMax + 1) * 128 ^ groups`. -/
theorem readGroups_writeGroups {lastMax groups n : Nat} (narrow : lastMax < 128)
    (fits : n < (lastMax + 1) * 128 ^ groups) (rest : List UInt8) :
    readGroups lastMax (groups + 1) (writeGroups n ++ rest) = .ok (n, rest) := by
  induction groups generalizing n with
  | zero =>
      have small : n < 128 := by omega
      have exactly : (UInt8.ofNat n).toNat = n := by
        rw [UInt8.toNat_ofNat']
        omega
      have within : ¬ lastMax < n := by omega
      rw [writeGroups_of_lt small]
      simp [readGroups, exactly, small, within]
  | succ groups ih =>
      by_cases small : n < 128
      · have exactly : (UInt8.ofNat n).toNat = n := by
          rw [UInt8.toNat_ofNat']
          omega
        rw [writeGroups_of_lt small]
        simp [readGroups, exactly, small]
      · have marked : (UInt8.ofNat (n % 128 + 128)).toNat = n % 128 + 128 := by
          rw [UInt8.toNat_ofNat']
          omega
        have high : n / 128 < (lastMax + 1) * 128 ^ groups := by
          rw [Nat.div_lt_iff_lt_mul (by decide), Nat.mul_assoc, ← Nat.pow_succ]
          exact fits
        rw [writeGroups_of_le (Nat.not_lt.mp small), List.cons_append, readGroups, marked,
          if_neg (by omega), ih high]
        have whole : (n % 128 + 128) % 128 + 128 * (n / 128) = n := by omega
        simp only [ok_bind, whole]

instance : Faithful UInt8 where
  spells _ _ := rfl

instance : Faithful UInt16 where
  spells value rest := by
    show (readGroups 3 3 (writeGroups value.toNat ++ rest) >>= _) = _
    rw [readGroups_writeGroups (by decide) value.toNat_lt]
    simp only [ok_bind, UInt16.ofNat_toNat]

instance : Faithful UInt32 where
  spells value rest := by
    show (readGroups 15 5 (writeGroups value.toNat ++ rest) >>= _) = _
    rw [readGroups_writeGroups (by decide) value.toNat_lt]
    simp only [ok_bind, UInt32.ofNat_toNat]

instance : Faithful UInt64 where
  spells value rest := by
    show (readGroups 1 10 (writeGroups value.toNat ++ rest) >>= _) = _
    rw [readGroups_writeGroups (by decide) value.toNat_lt]
    simp only [ok_bind, UInt64.ofNat_toNat]

instance : Faithful Bool where
  spells value rest := by cases value <;> rfl

/-- Two spellings in a row spell a pair. -/
theorem Spells.pair [Wire α] [Wire β] {first second : List UInt8} {a : α} {b : β}
    (spellsFirst : Spells first a) (spellsSecond : Spells second b) :
    Spells (first ++ second) (a, b) := by
  intro rest
  show (Wire.read (first ++ second ++ rest) >>= _) = _
  rw [List.append_assoc, spellsFirst, ok_bind]
  show (Wire.read (second ++ rest) >>= _) = _
  rw [spellsSecond, ok_bind]

/-- A type written as another one is spelled like it. -/
theorem Spells.along [Wire β] {encode : α → β} {decode : β → α} {bytes : List UInt8} {b : β}
    (spells : Spells bytes b) :
    letI : Wire α := Wire.along encode decode
    Spells bytes (decode b) := by
  intro rest
  show (Wire.read (bytes ++ rest) >>= _) = _
  rw [spells, ok_bind]

instance [Wire α] [Wire β] [Faithful α] [Faithful β] : Faithful (α × β) where
  spells pair := (Faithful.spells pair.1).pair (Faithful.spells pair.2)

/-- A record written as its fields is read back from them. -/
theorem Faithful.along [Wire β] [Faithful β] {encode : α → β} {decode : β → α}
    (inverse : ∀ a, decode (encode a) = a) :
    letI : Wire α := Wire.along encode decode
    Faithful α := by
  let _ : Wire α := Wire.along encode decode
  refine ⟨fun a => ?_⟩
  have spells : Spells (Wire.write a) (decode (encode a)) :=
    Spells.along (Faithful.spells (encode a))
  rw [inverse] at spells
  exact spells

/-- An alternative is found under its number, if it is listed at all. -/
theorem Faithful.alternative [Enumeration α] [DecidableEq α]
    (listed : ∀ a : α, a ∈ (Enumeration.members : List α))
    (few : (Enumeration.members : List α).length < 2 ^ 32) :
    letI : Wire α := Wire.alternative
    Faithful α := by
  let _ : Wire α := Wire.alternative
  refine ⟨fun a rest => ?_⟩
  have below : Enumeration.number a < (Enumeration.members : List α).length :=
    List.idxOf_lt_length_of_mem (listed a)
  have exactly : (UInt32.ofNat (Enumeration.number a)).toNat = Enumeration.number a := by
    rw [UInt32.toNat_ofNat']
    exact Nat.mod_eq_of_lt (below.trans few)
  have found : (Enumeration.ofNumber? (Enumeration.number a) : Option α) = some a := by
    rw [Enumeration.ofNumber?, List.getElem?_eq_getElem below]
    exact congrArg some (List.getElem_idxOf below)
  show (Wire.read (Wire.write (UInt32.ofNat (Enumeration.number a)) ++ rest) >>= _) = _
  rw [Faithful.spells, ok_bind]
  simp only [exactly, found]

/-- Reading as many items as there are finds them all, behind those in hand. -/
theorem readItems_flatMap [Wire α] [Faithful α] (items : List α) (inHand : Array α)
    (rest : List UInt8) :
    readItems items.length inHand (items.flatMap Wire.write ++ rest) =
      .ok (inHand ++ items.toArray, rest) := by
  induction items generalizing inHand with
  | nil => simp [readItems]
  | cons item items ih =>
      rw [List.flatMap_cons, List.append_assoc, List.length_cons, readItems, Faithful.spells]
      show readItems items.length (inHand.push item) _ = _
      rw [ih]
      simp

/-- A sequence whose length fits its 64 bit number is read back. -/
theorem spells_array [Wire α] [Faithful α] {items : Array α} (fits : items.size < 2 ^ 64) :
    Spells (Wire.write items) items := by
  intro rest
  have exactly : (UInt64.ofNat items.size).toNat = items.toList.length := by
    rw [UInt64.toNat_ofNat', Array.length_toList]
    exact Nat.mod_eq_of_lt fits
  show (Wire.read (Wire.write (UInt64.ofNat items.size) ++ items.toList.flatMap Wire.write ++ rest)
    >>= _) = _
  rw [List.append_assoc, Faithful.spells, ok_bind]
  simp only [exactly]
  rw [readItems_flatMap]
  simp

instance : Faithful RomKind := .alternative (by rintro ⟨⟩ <;> decide) (by decide)
instance : Faithful Orientation := .alternative (by rintro ⟨⟩ <;> decide) (by decide)
instance : Faithful Keys := .along fun _ => rfl
instance : Faithful KeyPad := .along fun _ => rfl
instance : Faithful EdgeDetector := .along fun _ => rfl

instance : Faithful SecondsCounter := by
  unfold instSecondsCounter
  exact .along fun _ => rfl

instance : Faithful RefreshController := by
  unfold instRefreshController
  exact .along fun _ => rfl

instance : Faithful Lcd.Controller := by
  unfold instController
  exact .along fun _ => rfl

instance : Faithful CycleEntry := by
  unfold instCycleEntry
  exact .along fun _ => rfl

instance : Faithful Incidents := by
  unfold instIncidents
  exact .along fun _ => rfl

instance : Faithful Oscillator := by
  unfold instOscillator
  exact .along fun _ => rfl

/-- A table of any size that a 64 bit number can count. -/
theorem spells_table {table : CycleTable} (fits : table.entries.size < 2 ^ 64) :
    Spells (Wire.write table) table :=
  Spells.along (spells_array fits)

theorem spells_ram {ram : Ram} (fits : ram.cells.size < 2 ^ 64) : Spells (Wire.write ram) ram :=
  Spells.along (spells_array fits)

/-- An image comes back without its bytes. -/
theorem spells_rom {rom : Rom} (fits : rom.touched.size < 2 ^ 64) :
    Spells (Wire.write rom) { rom with buffer := #[] } := by
  unfold instRom
  exact Spells.along ((Faithful.spells rom.kind).pair
    ((Faithful.spells rom.length).pair (spells_array fits)))

theorem spells_registers {bank : RegisterBank} (fits : bank.cells.size < 2 ^ 64) :
    Spells (Wire.write bank) bank := by
  unfold instRegisterBank
  exact Spells.along ((spells_array fits).pair (Faithful.spells _))

theorem spells_screen {screen : Screen} (fits : screen.pixels.size < 2 ^ 64) :
    Spells (Wire.write screen) screen := by
  unfold instScreen
  exact Spells.along ((spells_array fits).pair (Faithful.spells _))

/-- The entries of a tally spell it in any order. -/
theorem spells_tally {tally : Tally} {order : List (UInt16 × UInt32)}
    (perm : order.Perm tally.entries) : Spells (Wire.write order.toArray) tally := by
  have short : order.toArray.size < 2 ^ 64 := by
    rw [List.size_toArray, perm.length_eq]
    exact tally.length_entries_le.trans_lt (by decide)
  have spells : Spells (Wire.write order.toArray) (Tally.ofList order.toArray.toList) := by
    unfold instTally
    exact Spells.along (spells_array short)
  rw [Tally.ofList_of_perm perm] at spells
  exact spells

end Handheld.Wire

namespace Handheld

open Wire (Spells Faithful)

/-- The wire form of an audit whose discrepancies are written in a given order. -/
def Audit.writeInOrder (audit : Audit) (order : List (UInt16 × UInt32)) : List UInt8 :=
  Wire.write
    (audit.table, audit.cycles, audit.inInterrupt, audit.executed, order.toArray,
      audit.complaints, audit.stackLimit)

theorem Audit.spells_writeInOrder {audit : Audit} {order : List (UInt16 × UInt32)}
    (perm : order.Perm audit.discrepancies.entries)
    (table : audit.table.entries.size < 2 ^ 64) (executed : audit.executed.size < 2 ^ 64) :
    Spells (audit.writeInOrder order) audit := by
  have spells :
      Spells (audit.writeInOrder order)
        (audit.table, audit.cycles, audit.inInterrupt, audit.executed, audit.discrepancies,
          audit.complaints, audit.stackLimit) :=
    (Wire.spells_table table).pair ((Faithful.spells audit.cycles).pair
      ((Faithful.spells audit.inInterrupt).pair ((Wire.spells_array executed).pair
        ((Wire.spells_tally perm).pair (Faithful.spells (audit.complaints, audit.stackLimit))))))
  unfold Wire.instAudit
  exact Spells.along spells

namespace Board

/-- Every sequence of the board has a length that fits a 64 bit number. -/
structure LengthsFit (board : Board) : Prop where
  ram : board.ram.cells.size < 2 ^ 64
  bios : board.bios.touched.size < 2 ^ 64
  cartridge : board.cartridge.touched.size < 2 ^ 64
  registers : board.registers.cells.size < 2 ^ 64
  table : board.audit.table.entries.size < 2 ^ 64
  executed : board.audit.executed.size < 2 ^ 64
  pixels : board.screen.pixels.size < 2 ^ 64

/-- The board without the bytes of its images. -/
def withoutImages (board : Board) : Board :=
  { board with
    bios := { board.bios with buffer := #[] }
    cartridge := { board.cartridge with buffer := #[] } }

/-- The wire form of a board whose discrepancies are written in a given order. -/
def writeInOrder (board : Board) (order : List (UInt16 × UInt32)) : List UInt8 :=
  Wire.write board.ram ++ (Wire.write board.bios ++ (Wire.write board.cartridge ++
    (Wire.write board.registers ++ (board.audit.writeInOrder order ++
      (Wire.write board.screen ++ Wire.write (board.incidents, board.oscillator,
        board.renderDone, board.copyComplete, board.ticks))))))

/-- The writer takes the discrepancies by rising opcode. -/
theorem write_eq_writeInOrder (board : Board) :
    Wire.write board = board.writeInOrder board.audit.discrepancies.entries :=
  rfl

/-- The wire form of a board spells it without the bytes of its images. -/
theorem spells_writeInOrder {board : Board} {order : List (UInt16 × UInt32)}
    (perm : order.Perm board.audit.discrepancies.entries) (fits : board.LengthsFit) :
    Spells (board.writeInOrder order) board.withoutImages := by
  have spells :
      Spells (board.writeInOrder order)
        (board.ram, board.withoutImages.bios, board.withoutImages.cartridge, board.registers,
          board.audit, board.screen, board.incidents, board.oscillator, board.renderDone,
          board.copyComplete, board.ticks) :=
    (Wire.spells_ram fits.ram).pair ((Wire.spells_rom fits.bios).pair
      ((Wire.spells_rom fits.cartridge).pair
        ((Wire.spells_registers fits.registers).pair
          ((Audit.spells_writeInOrder perm fits.table fits.executed).pair
            ((Wire.spells_screen fits.pixels).pair (Faithful.spells
              (board.incidents, board.oscillator, board.renderDone, board.copyComplete,
                board.ticks)))))))
  unfold Wire.instBoard
  exact Spells.along spells

end Board

end Handheld
