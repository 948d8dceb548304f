/-
# Readers that only ever run out of bytes

More bytes behind those in hand change the answer of a reader in one case only:
when it ran out of them. A value that was found is found again, with the new bytes
among the rest, and a failure of any other kind stays.

Together with what bytes spell this says what a cut does. No spelling is the
beginning of another one, and bytes that end too early are recognized by that and
never taken for something else.
-/

import Handheld.Proofs.Wire.Spelling

namespace Handheld.Wire

open Checked

variable {α β : Type}

/-- What more bytes make of an answer: they are left over, if there is a rest. -/
def extended (more : List UInt8) (answer : Except Failure (α × List UInt8)) :
    Except Failure (α × List UInt8) :=
  answer.map fun (value, rest) => (value, rest ++ more)

/-- The reader changes its answer on more bytes only if it ran out of them. -/
def Waits (reader : Reader α) : Prop :=
  ∀ bytes more, reader bytes ≠ .error .endOfBytes →
    reader (bytes ++ more) = extended more (reader bytes)

namespace Waits

theorem ok (value : α) : Waits fun bytes => .ok (value, bytes) := by
  intro bytes more ranNot
  rfl

theorem error (failure : Failure) : Waits fun _ => (.error failure : Except _ (α × List UInt8)) := by
  intro bytes more ranNot
  rfl

/-- To look a value up takes no bytes. -/
theorem found (result : Option α) (failure : Failure) : Waits fun bytes =>
    match result with
    | some a => .ok (a, bytes)
    | none => .error failure := by
  cases result with
  | none => exact error failure
  | some a => exact ok a

/-- Two readers one after the other wait if each does. -/
theorem bind {first : Reader α} {second : α → Reader β} (waits : Waits first)
    (thenWaits : ∀ value, Waits (second value)) :
    Waits fun bytes => first bytes >>= fun (value, rest) => second value rest := by
  intro bytes more ranNot
  dsimp only at ranNot ⊢
  have firstRanNot : first bytes ≠ .error .endOfBytes := by
    intro ran
    rw [ran] at ranNot
    exact ranNot rfl
  rw [waits bytes more firstRanNot]
  cases read : first bytes with
  | error failure => rfl
  | ok found =>
      rw [read] at ranNot
      exact thenWaits found.1 found.2 more ranNot

/-- Bytes that end before a spelling does are found too short. -/
theorem read_take [Wire α] {bytes : List UInt8} {value : α} (waits : Waits (Wire.read : Reader α))
    (spells : Spells bytes value) {length : Nat} (short : length < bytes.length) :
    (Wire.read : Reader α) (bytes.take length) = .error .endOfBytes := by
  by_contra ranNot
  have whole := spells []
  rw [List.append_nil] at whole
  have longer := waits (bytes.take length) (bytes.drop length) ranNot
  rw [List.take_append_drop, whole] at longer
  -- The rest of the longer reading is empty, although it ends with what was cut off.
  obtain ⟨⟨found, rest⟩, -, same⟩ := of_map_eq_ok longer.symm
  have nothing := (List.append_eq_nil_iff.mp (congrArg Prod.snd same)).2
  rw [List.drop_eq_nil_iff] at nothing
  exact absurd short (Nat.not_lt.mpr nothing)

end Waits

/-- A type whose reader waits for more bytes. -/
class Incremental (α : Type) [Wire α] : Prop where
  waits : Waits (Wire.read : Reader α)

theorem waits_read (α : Type) [Wire α] [Incremental α] : Waits (Wire.read : Reader α) :=
  Incremental.waits

theorem waits_readGroups (lastMax groups : Nat) : Waits (readGroups lastMax groups) := by
  induction groups with
  | zero =>
      intro bytes more ranNot
      rfl
  | succ groups ih =>
      intro bytes more ranNot
      cases bytes with
      | nil => exact absurd rfl ranNot
      | cons byte rest =>
          rw [readGroups] at ranNot
          rw [List.cons_append, readGroups, readGroups]
          by_cases last : byte.toNat < 128
          · rw [if_pos last, if_pos last]
            split <;> rfl
          · rw [if_neg last] at ranNot
            rw [if_neg last, if_neg last]
            exact ih.bind (fun high => Waits.ok (byte.toNat % 128 + 128 * high)) rest more ranNot

instance : Incremental UInt8 where
  waits bytes more ranNot := by
    cases bytes with
    | nil => exact absurd rfl ranNot
    | cons byte rest => rfl

instance : Incremental Bool where
  waits bytes more ranNot := by
    cases bytes with
    | nil => exact absurd rfl ranNot
    | cons byte rest =>
        rw [List.cons_append]
        dsimp only [Wire.read]
        split
        · rfl
        · split <;> rfl

instance : Incremental UInt16 where
  waits := (waits_readGroups 3 3).bind fun n => Waits.ok (UInt16.ofNat n)

instance : Incremental UInt32 where
  waits := (waits_readGroups 15 5).bind fun n => Waits.ok (UInt32.ofNat n)

instance : Incremental UInt64 where
  waits := (waits_readGroups 1 10).bind fun n => Waits.ok (UInt64.ofNat n)

instance [Wire α] [Wire β] [Incremental α] [Incremental β] : Incremental (α × β) where
  waits := (waits_read α).bind fun a =>
    (waits_read β).bind fun b => Waits.ok (a, b)

theorem Incremental.along [Wire β] [Incremental β] {encode : α → β} {decode : β → α} :
    letI : Wire α := Wire.along encode decode
    Incremental α :=
  let _ : Wire α := Wire.along encode decode
  ⟨(waits_read β).bind fun b => Waits.ok (decode b)⟩

theorem Incremental.alternative [Enumeration α] [DecidableEq α] :
    letI : Wire α := Wire.alternative
    Incremental α := by
  let _ : Wire α := Wire.alternative
  exact ⟨(waits_read UInt32).bind fun n => .found (Enumeration.ofNumber? n.toNat) _⟩

theorem waits_readItems [Wire α] [Incremental α] (n : Nat) (items : Array α) :
    Waits (readItems n items) := by
  induction n generalizing items with
  | zero => exact Waits.ok items
  | succ n ih => exact (waits_read α).bind fun item => ih (items.push item)

instance [Wire α] [Incremental α] : Incremental (Array α) where
  waits := (waits_read UInt64).bind fun n => waits_readItems n.toNat #[]

instance : Incremental RomKind := .alternative
instance : Incremental Orientation := .alternative
instance : Incremental Keys := .along
instance : Incremental KeyPad := .along
instance : Incremental EdgeDetector := .along
instance : Incremental Ram := .along

instance : Incremental Tally := by
  unfold instTally
  exact .along

instance : Incremental SecondsCounter := by
  unfold instSecondsCounter
  exact .along

instance : Incremental RefreshController := by
  unfold instRefreshController
  exact .along

instance : Incremental Lcd.Controller := by
  unfold instController
  exact .along

instance : Incremental RegisterBank := by
  unfold instRegisterBank
  exact .along

instance : Incremental Rom := by
  unfold instRom
  exact .along

instance : Incremental CycleEntry := by
  unfold instCycleEntry
  exact .along

instance : Incremental CycleTable := .along

instance : Incremental Audit := by
  unfold instAudit
  exact .along

instance : Incremental Screen := by
  unfold instScreen
  exact .along

instance : Incremental Incidents := by
  unfold instIncidents
  exact .along

instance : Incremental Oscillator := by
  unfold instOscillator
  exact .along

instance : Incremental Board := by
  unfold instBoard
  exact .along

end Handheld.Wire
