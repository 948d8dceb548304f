/-
# What has been read of an image

A socket answers every offset with the byte of its image, repeated over a window that is
the least power of two with room for the image. It also keeps a record of the bus reads.
The record is a packed set of places in the window, while everything that is asked of it
is about offsets: this module says what it answers after any accesses, in terms of the
offsets alone.

Reads behind the end of the image are recorded like all others, but they are not counted.
-/

import Mathlib.Data.Nat.ModEq
import Mathlib.Order.Bounds.Basic
import Handheld.Proofs.Rom

namespace Handheld.Rom

open Checked

variable {rom changed : Rom} {kind : RomKind} {image : Array UInt8}

/-- The window of an image is the least power of two that has room for it. -/
theorem isLeast_windowFor (length : Nat) :
    IsLeast {size | (∃ exponent, size = 2 ^ exponent) ∧ max 1 length ≤ size}
      (windowFor length) := by
  have power := windowFor_eq_clog length
  constructor
  · have positive : 1 ≤ windowFor length := by
      rw [power]
      exact Nat.one_le_two_pow
    exact ⟨⟨_, power⟩, max_le positive (le_windowFor length)⟩
  · rintro size ⟨⟨exponent, rfl⟩, room⟩
    exact windowFor_le ((le_max_right 1 length).trans room)

/-- An offset is taken into the window by a mask. -/
theorem Holds.place_eq_and (holds : rom.Holds kind image) (offset : Nat) :
    rom.place offset = offset &&& (rom.window - 1) := by
  rw [place, holds.window_eq, windowFor_eq_clog, Nat.and_two_pow_sub_one_eq_mod]

theorem bios_eq_error_iff {refusal : Error} :
    Rom.bios image = .error refusal ↔ image.size = 0 ∧ refusal = .emptyBios := by
  by_cases none : image.size = 0
  · simp [Rom.bios, Array.isEmpty, none, eq_comm]
  · simp [Rom.bios, Array.isEmpty, none]

theorem cartridge_eq_error_iff {refusal : Error} :
    Rom.cartridge image = .error refusal ↔
      cartridgeLimit < image.size ∧ refusal = .cartridgeTooLarge image.size := by
  by_cases large : cartridgeLimit < image.size
  · simp [Rom.cartridge, large, eq_comm]
  · simp [Rom.cartridge, large]

/-- What is done to a socket. -/
inductive Access
  /-- A read over the bus. -/
  | fetch (offset : Nat)
  /-- A look from outside. -/
  | get (offset : Nat)
  /-- The record is cleared. -/
  | clear
  deriving DecidableEq

/-- The offset that an access reads. -/
def Access.offset? : Access → Option Nat
  | .fetch offset | .get offset => some offset
  | .clear => none

/-- The offset that an access reads over the bus. -/
def Access.fetched? : Access → Option Nat
  | .fetch offset => some offset
  | .get _ | .clear => none

/-- Carry out an access, and give the byte that it reads. -/
def access (rom : Rom) : Access → Checked (Option UInt8 × Rom)
  | .fetch offset => (rom.fetch offset).map fun (data, changed) => (some data, changed)
  | .get offset => (rom.get offset).map fun data => (some data, rom)
  | .clear => .ok (none, rom.clearTouched)

/-- Carry out accesses, the first one first, and give all answers. -/
def accessAll : List Access → Rom → Checked (List (Option UInt8) × Rom)
  | [], rom => .ok ([], rom)
  | access :: accesses, rom => do
    let (answer, rom) ← rom.access access
    let (answers, rom) ← rom.accessAll accesses
    .ok (answer :: answers, rom)

/-- The offsets read over the bus since the record was last cleared, the latest first. -/
def fetchedSinceClear (accesses : List Access) : List Nat :=
  (accesses.reverse.takeWhile (· ≠ .clear)).filterMap Access.fetched?

theorem fetchedSinceClear_concat_fetch (past : List Access) (offset : Nat) :
    fetchedSinceClear (past ++ [.fetch offset]) = offset :: fetchedSinceClear past := by
  simp [fetchedSinceClear, Access.fetched?]

theorem fetchedSinceClear_concat_get (past : List Access) (offset : Nat) :
    fetchedSinceClear (past ++ [.get offset]) = fetchedSinceClear past := by
  simp [fetchedSinceClear, List.filterMap_cons, Access.fetched?]

theorem fetchedSinceClear_concat_clear (past : List Access) :
    fetchedSinceClear (past ++ [.clear]) = [] := by
  simp [fetchedSinceClear]

/-- The socket holds its image, and its record has the places of the offsets that were
read since the last clearing. -/
structure Records (rom : Rom) (kind : RomKind) (image : Array UInt8) (past : List Access) :
    Prop where
  holds : rom.Holds kind image
  members_eq : Bitmap.members rom.touched =
    ((fetchedSinceClear past).map (· % windowFor image.size)).toFinset

variable {past : List Access}

theorem records_ofImage (kind : RomKind) (image : Array UInt8) :
    (ofImage kind image).Records kind image [] where
  holds := ofImage_holds kind image
  members_eq := Bitmap.members_empty _

theorem Records.fetch (records : rom.Records kind image past) {offset : Nat} {data : UInt8}
    (fetched : rom.fetch offset = .ok (data, changed)) :
    changed.Records kind image (past ++ [.fetch offset]) := by
  have holds := records.holds.sameImage (sameImage_of_fetch fetched)
  obtain ⟨touched, inserted, rest⟩ := bind_eq_ok.mp fetched
  obtain ⟨byte, -, same⟩ := bind_eq_ok.mp rest
  cases same
  refine ⟨holds, ?_⟩
  rw [fetchedSinceClear_concat_fetch, List.map_cons, List.toFinset_cons, ← records.members_eq,
    ← records.holds.window_eq]
  exact Bitmap.members_of_insert inserted

theorem Records.get (records : rom.Records kind image past) (offset : Nat) :
    rom.Records kind image (past ++ [.get offset]) :=
  ⟨records.holds, by rw [fetchedSinceClear_concat_get, records.members_eq]⟩

theorem Records.clear (records : rom.Records kind image past) :
    rom.clearTouched.Records kind image (past ++ [.clear]) := by
  refine ⟨records.holds.clearTouched, ?_⟩
  rw [fetchedSinceClear_concat_clear, records.holds.clearTouched_eq]
  exact Bitmap.members_empty _

/-- Every access succeeds, reads the byte of the repeated image, and is recorded. -/
theorem Records.access (records : rom.Records kind image past) (access : Access) :
    ∃ changed, rom.access access = .ok (access.offset?.map (padded image), changed) ∧
      changed.Records kind image (past ++ [access]) := by
  cases access with
  | fetch offset =>
      obtain ⟨changed, fetched, -⟩ := records.holds.fetch_eq_ok offset
      refine ⟨changed, ?_, records.fetch fetched⟩
      rw [Rom.access, fetched]
      rfl
  | get offset =>
      refine ⟨rom, ?_, records.get offset⟩
      rw [Rom.access, records.holds.get_eq_ok]
      rfl
  | clear => exact ⟨rom.clearTouched, rfl, records.clear⟩

theorem Records.accessAll (records : rom.Records kind image past) (accesses : List Access) :
    ∃ after, rom.accessAll accesses =
        .ok (accesses.map fun access => access.offset?.map (padded image), after) ∧
      after.Records kind image (past ++ accesses) := by
  induction accesses generalizing rom past with
  | nil => exact ⟨rom, rfl, by rwa [List.append_nil]⟩
  | cons access accesses ih =>
      obtain ⟨changed, accessed, recorded⟩ := records.access access
      obtain ⟨after, rest, last⟩ := ih recorded
      rw [List.append_assoc, List.singleton_append] at last
      exact ⟨after, bind_eq_ok.mpr ⟨_, accessed, bind_eq_ok.mpr ⟨_, rest, rfl⟩⟩, last⟩

/-- An offset is touched if it is congruent to one that was read. -/
theorem Records.isTouched_eq (records : rom.Records kind image past) (offset : Nat) :
    rom.isTouched offset = .ok (decide (∃ fetched ∈ fetchedSinceClear past,
      fetched ≡ offset [MOD windowFor image.size])) := by
  rw [isTouched, Bitmap.contains_eq (records.holds.place_lt offset).2, records.members_eq]
  congr 1
  rw [decide_eq_decide, List.mem_toFinset, List.mem_map, place, records.holds.window_eq]
  rfl

/-- Counting goes through the places below `n` from the last one to the first. -/
theorem Holds.countTouched_eq (holds : rom.Holds kind image) {n : Nat} (inside : n ≤ rom.window)
    (count : Nat) :
    rom.countTouched n count =
      .ok (count + ((Finset.range n).filter (· ∈ Bitmap.members rom.touched)).card) := by
  induction n generalizing count with
  | zero => rfl
  | succ n ih =>
      have itself : rom.place n = n := Nat.mod_eq_of_lt inside
      have room := (holds.place_lt n).2
      rw [itself] at room
      rw [countTouched, isTouched, itself, Bitmap.contains_eq room, ok_bind, ih (by omega),
        Finset.range_add_one, Finset.filter_insert]
      by_cases touched : n ∈ Bitmap.members rom.touched
      · simp [touched]
        omega
      · simp [touched]

/-- The touched places of the image are counted once each, and those behind its end are
not counted. -/
theorem Records.touchedCount_eq (records : rom.Records kind image past)
    (short : image.size < 2 ^ 64) :
    rom.touchedCount = .ok (((fetchedSinceClear past).map (· % windowFor image.size)).filter
      (· < image.size)).toFinset.card := by
  have length : rom.length.toNat = image.size := by
    rw [records.holds.length]
    exact UInt64.toNat_ofNat_of_lt' short
  have inside : image.size ≤ rom.window := by
    rw [records.holds.window_eq]
    exact le_windowFor _
  rw [touchedCount, length, records.holds.countTouched_eq inside, Nat.zero_add,
    records.members_eq]
  congr 2
  ext place
  simp [and_comm]

theorem padded_eq (image : Array UInt8) (offset : Nat) :
    padded image offset = image.getD (offset % windowFor image.size) 0 := by
  rw [padded, windowFor_eq_clog]

/-- Both ways of filling a socket leave the image in it and an empty record. -/
theorem records_of_load (loaded : Rom.bios image = .ok rom ∨ Rom.cartridge image = .ok rom) :
    ∃ kind, rom.Records kind image [] := by
  rcases loaded with made | made
  · exact ⟨_, eq_ofImage_of_bios made ▸ records_ofImage _ _⟩
  · exact ⟨_, (of_cartridge made).2 ▸ records_ofImage _ _⟩

/-- Images repeat over their window, and the record knows what was read of them.

Only an empty boot image and a cartridge above two mebibytes are refused. Of an image that
is accepted, and whose length is a word, any accesses succeed. Each of them finds the byte
at its offset modulo the window, or zero behind the end of the image. Afterwards an offset
is touched if it is congruent to one read over the bus since the record was last cleared,
the count is that of the distinct places of such offsets within the image, and the image is
what it was. -/
theorem image_repeats_and_is_recorded (image : Array UInt8) (short : image.size < 2 ^ 64) :
    (∀ refusal, Rom.bios image = .error refusal ↔ image.size = 0 ∧ refusal = .emptyBios) ∧
    (∀ refusal, Rom.cartridge image = .error refusal ↔
      2 * 1024 * 1024 < image.size ∧ refusal = .cartridgeTooLarge image.size) ∧
    ∀ rom, Rom.bios image = .ok rom ∨ Rom.cartridge image = .ok rom →
      ∃ window,
        IsLeast {size | (∃ exponent, size = 2 ^ exponent) ∧ max 1 image.size ≤ size} window ∧
        rom.window = window ∧ (∀ offset, rom.place offset = offset &&& (window - 1)) ∧
        ∀ accesses, ∃ after,
          rom.accessAll accesses = .ok (accesses.map fun access =>
            access.offset?.map fun offset => image.getD (offset % window) 0, after) ∧
          (∀ offset, after.get offset = .ok (image.getD (offset % window) 0)) ∧
          (∀ offset, ∃ changed,
            after.fetch offset = .ok (image.getD (offset % window) 0, changed)) ∧
          (∀ offset, after.isTouched offset = .ok (decide (∃ fetched ∈ fetchedSinceClear accesses,
            fetched ≡ offset [MOD window]))) ∧
          after.touchedCount = .ok (((fetchedSinceClear accesses).map (· % window)).filter
            (· < image.size)).toFinset.card ∧
          after.image = .ok image := by
  refine ⟨fun _ => bios_eq_error_iff, fun _ => cartridge_eq_error_iff, ?_⟩
  intro rom loaded
  obtain ⟨kind, records⟩ := records_of_load loaded
  have window := records.holds.window_eq
  refine ⟨windowFor image.size, isLeast_windowFor _, window, ?_, ?_⟩
  · intro offset
    rw [records.holds.place_eq_and, window]
  · intro accesses
    obtain ⟨after, accessed, recorded⟩ := records.accessAll accesses
    simp only [← padded_eq]
    refine ⟨after, accessed, recorded.holds.get_eq_ok, ?_, recorded.isTouched_eq,
      recorded.touchedCount_eq short, recorded.holds.image_eq short⟩
    intro offset
    obtain ⟨changed, fetched, -⟩ := recorded.holds.fetch_eq_ok offset
    exact ⟨changed, fetched⟩

/-- Three bytes in a window of four. The read of the first is forgotten, the second is read
twice, through two of its mirrors, and the padding once. -/
theorem image_repeats_and_is_recorded_padded :
    ∃ rom after answers, Rom.bios #[7, 8, 9] = .ok rom ∧
      rom.accessAll [.fetch 4, .clear, .fetch 5, .get 2, .fetch 7, .fetch 9] =
        .ok (answers, after) ∧
      answers = [some 7, none, some 8, some 9, some 0, some 8] ∧
      after.isTouched 1 = .ok true ∧ after.isTouched 0 = .ok false ∧
      after.isTouched 11 = .ok true ∧ after.touchedCount = .ok 1 := by
  obtain ⟨-, -, socket⟩ := image_repeats_and_is_recorded #[7, 8, 9] (by decide)
  obtain ⟨window, least, -, -, accessed⟩ := socket (ofImage .bios #[7, 8, 9]) (.inl rfl)
  have four : window = 4 :=
    least.unique (isLeast_windowFor 3)
  subst four
  obtain ⟨after, done, -, -, touched, count, -⟩ :=
    accessed [.fetch 4, .clear, .fetch 5, .get 2, .fetch 7, .fetch 9]
  refine ⟨_, after, _, rfl, done, by decide, ?_, ?_, ?_, ?_⟩
  · rw [touched]
    decide
  · rw [touched]
    decide
  · rw [touched]
    decide
  · rw [count]
    decide

end Handheld.Rom
