/-
# The address map is a partition

The windows of the address map follow one another without a gap, from the first
line of the bus to the last. Walking such a table finds the one window that
contains a line, so the answer for lines behind its end is never given.

All four regions take a line into their buffer by the mask of the buffer's size.
The offset lies inside the buffer whatever that size is, and it is a remainder
where the size is a power of two. Nothing is asked of the two image lengths: they
may be zero, between powers of two, or beyond the words of the bus.
-/

import Mathlib.Data.Nat.ModEq
import Handheld.Proofs.AddressMap

namespace Handheld

variable {address : UInt32} {biosLength cartridgeLength : Nat}

/-- The windows cover the addresses from `start` on and below `stop`, each one from
where the one before it ends. -/
def Tiles (start stop : Nat) : List Window → Prop
  | [] => start = stop
  | window :: rest =>
    window.first.toNat = start ∧ start ≤ window.last.toNat ∧
      Tiles (window.last.toNat + 1) stop rest

theorem Window.contains_iff (window : Window) :
    window.contains address = true ↔
      window.first.toNat ≤ address.toNat ∧ address.toNat ≤ window.last.toNat := by
  simp [Window.contains, UInt32.le_iff_toNat_le]

/-- No window of a row contains an address before its start. -/
theorem Tiles.filter_eq_nil {start stop : Nat} {windows : List Window}
    (tiles : Tiles start stop windows) (before : address.toNat < start) :
    windows.filter (·.contains address) = [] := by
  induction windows generalizing start with
  | nil => rfl
  | cons window rest ih =>
      obtain ⟨first, ordered, tail⟩ := tiles
      have outside : ¬ window.contains address = true := by
        rw [window.contains_iff]
        omega
      rw [List.filter_cons, if_neg outside]
      exact ih tail (by omega)

/-- Exactly one window of a row contains an address within its bounds. -/
theorem Tiles.filter_eq_singleton {start stop : Nat} {windows : List Window}
    (tiles : Tiles start stop windows) (above : start ≤ address.toNat)
    (below : address.toNat < stop) :
    ∃ window, windows.filter (·.contains address) = [window] := by
  induction windows generalizing start with
  | nil =>
      have empty : start = stop := tiles
      omega
  | cons window rest ih =>
      obtain ⟨first, ordered, tail⟩ := tiles
      by_cases inside : address.toNat ≤ window.last.toNat
      · have here : window.contains address = true := window.contains_iff.mpr ⟨by omega, inside⟩
        refine ⟨window, ?_⟩
        rw [List.filter_cons, if_pos here, tail.filter_eq_nil (by omega)]
      · have outside : ¬ window.contains address = true := by
          rw [window.contains_iff]
          omega
        rw [List.filter_cons, if_neg outside]
        exact ih tail (by omega)

/-- The address map covers the lines of the bus. -/
theorem tiles_addressMap : Tiles 0 0x200000 addressMap := by
  simp [addressMap, Tiles]

/-- The walk through the address map always finds the one window that contains the
lines of an address. -/
theorem exists_window (address : UInt32) :
    ∃ window, addressMap.filter (·.contains (address &&& busMask)) = [window] ∧
      addressMap.find? (·.contains (address &&& busMask)) = some window ∧
      regionOf address = window.region := by
  have below : (address &&& busMask).toNat < 0x200000 := by
    rw [toNat_and_busMask]
    exact lineOf_lt address
  obtain ⟨window, only⟩ := tiles_addressMap.filter_eq_singleton (Nat.zero_le _) below
  have found : addressMap.find? (·.contains (address &&& busMask)) = some window := by
    rw [← List.head?_filter, only]
    rfl
  refine ⟨window, only, found, ?_⟩
  rw [regionOf, found]

theorem line_of_regionOf_eq_ram (region : regionOf address = .ram) :
    0x1000 ≤ lineOf address ∧ lineOf address < 0x2000 := by
  rw [regionOf_eq] at region
  split_ifs at region
  omega

theorem line_of_regionOf_eq_registers (region : regionOf address = .registers) :
    0x2000 ≤ lineOf address ∧ lineOf address < 0x2100 := by
  rw [regionOf_eq] at region
  split_ifs at region
  omega

/-- The size of the buffer behind a region. -/
def bufferSize (biosLength cartridgeLength : Nat) : Region → Nat
  | .bios => biosLength
  | .ram => 0x1000
  | .registers => 0x100
  | .cartridge => cartridgeLength

/-- Every region takes the lines of an address into its buffer by the same rule. -/
theorem decode_eq_sizeMask (address : UInt32) (biosLength cartridgeLength : Nat) :
    decode address biosLength cartridgeLength =
      ⟨regionOf address, (address &&& busMask &&&
        sizeMask (bufferSize biosLength cartridgeLength (regionOf address))).toNat⟩ := by
  unfold decode
  cases regionOf address <;> rfl

/-- What is left by a mask is below the size that the mask was made for, even where that
size exceeds the word. -/
theorem toNat_and_sizeMask_lt (word : UInt32) (length : Nat) :
    (word &&& sizeMask length).toNat < max 1 length := by
  by_cases none : length = 0
  · subst none
    simp [sizeMask]
  · have masked : (word &&& sizeMask length).toNat ≤ (sizeMask length).toNat := by
      rw [UInt32.toNat_and]
      exact Nat.and_le_right
    have mask : (sizeMask length).toNat ≤ length - 1 := by
      rw [sizeMask, if_neg none, UInt32.toNat_ofNat']
      exact Nat.mod_le _ _
    omega

theorem decode_offset_lt (address : UInt32) (biosLength cartridgeLength : Nat) :
    (decode address biosLength cartridgeLength).offset <
      max 1 (bufferSize biosLength cartridgeLength (regionOf address)) := by
  rw [decode_eq_sizeMask]
  exact toNat_and_sizeMask_lt _ _

theorem decode_offset_le_lineOf (address : UInt32) (biosLength cartridgeLength : Nat) :
    (decode address biosLength cartridgeLength).offset ≤ lineOf address := by
  rw [decode_eq_sizeMask, ← toNat_and_busMask]
  show (address &&& busMask &&& _).toNat ≤ _
  rw [UInt32.toNat_and (address &&& busMask)]
  exact Nat.and_le_left

/-- In a buffer whose size is a power of two, the offset is a remainder. -/
theorem decode_offset_eq_mod {exponent : Nat}
    (size : bufferSize biosLength cartridgeLength (regionOf address) = 2 ^ exponent) :
    (decode address biosLength cartridgeLength).offset = lineOf address % 2 ^ exponent := by
  rw [decode_eq_sizeMask, size]
  show (address &&& busMask &&& sizeMask (2 ^ exponent)).toNat = _
  rw [toNat_and_sizeMask, toNat_and_busMask]

/-- Working memory and the registers are as large as their windows, so nothing repeats
in them. -/
theorem decode_offset_of_ram (region : regionOf address = .ram) :
    0x1000 + (decode address biosLength cartridgeLength).offset = lineOf address := by
  obtain ⟨above, below⟩ := line_of_regionOf_eq_ram region
  have size : bufferSize biosLength cartridgeLength (regionOf address) = 2 ^ 12 := by
    rw [region]
    rfl
  rw [decode_offset_eq_mod size]
  omega

theorem decode_offset_of_registers (region : regionOf address = .registers) :
    0x2000 + (decode address biosLength cartridgeLength).offset = lineOf address := by
  obtain ⟨above, below⟩ := line_of_regionOf_eq_registers region
  have size : bufferSize biosLength cartridgeLength (regionOf address) = 2 ^ 8 := by
    rw [region]
    rfl
  rw [decode_offset_eq_mod size]
  omega

/-- A buffer of `length` bytes repeats over the lines of a region: offsets are remainders,
and lines share one exactly when they are congruent. Where the bus has a whole number of
repetitions, the same holds of addresses as they are, with all their bits. -/
def Repeats (resolve : UInt32 → Location) (region : Region) (length : Nat) : Prop :=
  ∀ address, (resolve address).region = region →
    (resolve address).offset = lineOf address % length ∧
    ∀ other, (resolve other).region = region →
      ((resolve address).offset = (resolve other).offset ↔
        lineOf address ≡ lineOf other [MOD length]) ∧
      (length ≤ 0x200000 →
        ((resolve address).offset = (resolve other).offset ↔
          address.toNat ≡ other.toNat [MOD length]))

/-- Within a whole number of repetitions an address is congruent to its lines. -/
theorem lineOf_modEq {exponent : Nat} (address : UInt32) (fits : 2 ^ exponent ≤ 0x200000) :
    lineOf address ≡ address.toNat [MOD 2 ^ exponent] := by
  have small : exponent ≤ 21 := (Nat.pow_le_pow_iff_right (by decide)).mp fits
  exact Nat.mod_mod_of_dvd _ (Nat.pow_dvd_pow 2 small)

theorem repeats_of_bufferSize {region : Region} {exponent : Nat}
    (size : bufferSize biosLength cartridgeLength region = 2 ^ exponent) :
    Repeats (decode · biosLength cartridgeLength) region (2 ^ exponent) := by
  have remainder : ∀ address, (decode address biosLength cartridgeLength).region = region →
      (decode address biosLength cartridgeLength).offset = lineOf address % 2 ^ exponent := by
    rintro address rfl
    exact decode_offset_eq_mod size
  intro address here
  refine ⟨remainder address here, fun other there => ?_⟩
  have shared : (decode address biosLength cartridgeLength).offset =
        (decode other biosLength cartridgeLength).offset ↔
      lineOf address ≡ lineOf other [MOD 2 ^ exponent] := by
    rw [remainder address here, remainder other there]
    rfl
  refine ⟨shared, fun fits => shared.trans ⟨fun congruent => ?_, fun congruent => ?_⟩⟩
  · exact (lineOf_modEq address fits).symm.trans (congruent.trans (lineOf_modEq other fits))
  · exact (lineOf_modEq address fits).trans (congruent.trans (lineOf_modEq other fits).symm)

/-- Decoding cuts the lines of the bus into four parts, each with its buffer.

Exactly one window contains the lines of an address. The walk finds it, and its region is
the one that answers. The offset is inside the buffer: below the length of an image, and
for a cartridge also below the number of lines, where an empty image has the one offset
zero; in working memory and among the registers it is the distance from the start of the
window. An image whose length is a power of two repeats over its window. -/
theorem decoding_partitions_the_lines (address : UInt32) (biosLength cartridgeLength : Nat) :
    let line := address &&& busMask
    let found := decode address biosLength cartridgeLength
    (∃ window, addressMap.filter (·.contains line) = [window] ∧
      addressMap.find? (·.contains line) = some window ∧ regionOf address = window.region) ∧
    found.region = regionOf address ∧
    (found.region = .bios → found.offset < max 1 biosLength) ∧
    (found.region = .ram → found.offset < 0x1000 ∧ 0x1000 + found.offset = line.toNat) ∧
    (found.region = .registers → found.offset < 0x100 ∧ 0x2000 + found.offset = line.toNat) ∧
    (found.region = .cartridge → found.offset < max 1 (min cartridgeLength 0x200000)) ∧
    (∀ exponent, biosLength = 2 ^ exponent →
      Repeats (decode · biosLength cartridgeLength) .bios biosLength) ∧
    (∀ exponent, cartridgeLength = 2 ^ exponent →
      Repeats (decode · biosLength cartridgeLength) .cartridge cartridgeLength) := by
  intro line found
  have isLine : line.toNat = lineOf address := toNat_and_busMask address
  have inBuffer : found.offset < max 1 (bufferSize biosLength cartridgeLength found.region) :=
    decode_offset_lt address biosLength cartridgeLength
  refine ⟨exists_window address, rfl, ?_, ?_, ?_, ?_, ?_, ?_⟩
  · intro bios
    rwa [bios] at inBuffer
  · intro ram
    rw [ram] at inBuffer
    exact ⟨inBuffer, (decode_offset_of_ram ram).trans isLine.symm⟩
  · intro registers
    rw [registers] at inBuffer
    exact ⟨inBuffer, (decode_offset_of_registers registers).trans isLine.symm⟩
  · intro cartridge
    rw [cartridge] at inBuffer
    have onBus : found.offset < 0x200000 :=
      (decode_offset_le_lineOf address _ _).trans_lt (lineOf_lt address)
    simp only [bufferSize] at inBuffer
    omega
  · rintro exponent power
    rw [power]
    exact repeats_of_bufferSize rfl
  · rintro exponent power
    rw [power]
    exact repeats_of_bufferSize rfl

/-- A boot image of eight gibibytes, whose mask does not fit the word, and a cartridge that
repeats: two addresses that differ by more than the bus share an offset, and next to the
registers the windows meet without a gap. -/
theorem decoding_partitions_the_lines_oversized :
    let resolve := (decode · (2 ^ 33) (2 ^ 15))
    resolve 0xFFE00FFF = ⟨.bios, 0xFFF⟩ ∧ resolve 0x20FF = ⟨.registers, 0xFF⟩ ∧
      (resolve 0x1A2100).offset = (resolve 0x202100).offset := by
  intro resolve
  refine ⟨by decide +kernel, by decide +kernel, ?_⟩
  obtain ⟨-, -, -, -, -, -, -, cartridge⟩ :=
    decoding_partitions_the_lines 0x1A2100 (2 ^ 33) (2 ^ 15)
  obtain ⟨-, sharing⟩ := cartridge 15 rfl 0x1A2100 (by decide +kernel)
  exact (sharing 0x202100 (by decide +kernel)).1.mpr (by decide)

end Handheld
