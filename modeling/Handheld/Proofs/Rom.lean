/-
# Images in their sockets

What a socket holds is an image, padded to a power of two, and a record of what
has been read of it. The first never changes under a read, so every statement
about a socket can name the image. Reading at any offset finds the byte at that
offset modulo the window, and zero behind the end of the image.
-/

import Mathlib.Data.Nat.Log
import Handheld.Proofs.Bitmap
import Handheld.Proofs.Board.Effects

namespace Handheld

open Checked

namespace Rom

/-- The buffer of an image is as large as the next power of two. -/
theorem windowFor_eq_clog (length : Nat) : windowFor length = 2 ^ Nat.clog 2 length := by
  unfold windowFor
  split
  · rename_i small
    rw [Nat.clog_of_right_le_one small, Nat.pow_zero]
  · rename_i large
    have positive : length - 1 ≠ 0 := by omega
    have above : length ≤ 2 ^ (Nat.log2 (length - 1) + 1) := by
      have := Nat.lt_log2_self (n := length - 1)
      omega
    have below : 2 ^ Nat.log2 (length - 1) < length := by
      have := Nat.log2_self_le positive
      omega
    rw [Nat.one_shiftLeft]
    congr 1
    refine le_antisymm ?_ (Nat.clog_le_of_le_pow above)
    exact Nat.succ_le_of_lt ((Nat.lt_clog_iff_pow_lt (by decide)).mpr below)

/-- A window has room for its image. -/
theorem le_windowFor (length : Nat) : length ≤ windowFor length := by
  rw [windowFor_eq_clog]
  exact Nat.le_pow_clog (by decide) length

/-- A window is no larger than any power of two that has room for the image. -/
theorem windowFor_le {length exponent : Nat} (room : length ≤ 2 ^ exponent) :
    windowFor length ≤ 2 ^ exponent := by
  rw [windowFor_eq_clog]
  exact Nat.pow_le_pow_right (by decide) (Nat.clog_le_of_le_pow room)

/-- The socket holds an image, of which some part may have been read. -/
def Holds (rom : Rom) (kind : RomKind) (image : Array UInt8) : Prop :=
  (ofImage kind image).SameImage rom

variable {rom other : Rom} {kind : RomKind} {image : Array UInt8}

/-- An empty socket cannot be told from one with an empty image. -/
theorem empty_holds (kind : RomKind) : (empty kind).Holds kind #[] := by
  refine ⟨rfl, ?_, rfl, ?_⟩
  · simp [empty, ofImage, windowFor]
  · simp [empty, ofImage, windowFor, Bitmap.empty]

theorem ofImage_holds (kind : RomKind) (image : Array UInt8) : (ofImage kind image).Holds kind image :=
  .refl _

theorem eq_ofImage_of_bios (made : Rom.bios image = .ok rom) : rom = ofImage .bios image := by
  unfold Rom.bios at made
  split at made
  · cases made
  · cases made
    rfl

theorem of_cartridge (made : Rom.cartridge image = .ok rom) :
    image.size ≤ cartridgeLimit ∧ rom = ofImage .cartridge image := by
  unfold Rom.cartridge at made
  split at made
  · cases made
  · rename_i small
    cases made
    exact ⟨Nat.not_lt.mp small, rfl⟩

theorem holds_of_bios (made : Rom.bios image = .ok rom) : rom.Holds .bios image :=
  eq_ofImage_of_bios made ▸ ofImage_holds _ _

theorem holds_of_cartridge (made : Rom.cartridge image = .ok rom) : rom.Holds .cartridge image :=
  (of_cartridge made).2 ▸ ofImage_holds _ _

theorem Holds.sameImage (holds : rom.Holds kind image) (same : rom.SameImage other) :
    other.Holds kind image :=
  SameImage.trans holds same

theorem Holds.clearTouched (holds : rom.Holds kind image) : rom.clearTouched.Holds kind image :=
  holds.sameImage ⟨rfl, rfl, rfl, Array.size_replicate⟩

/-- An image of which nothing has been read is as it was put into its socket. -/
theorem Holds.clearTouched_eq (holds : rom.Holds kind image) :
    rom.clearTouched = ofImage kind image := by
  have touched : Array.replicate rom.touched.size 0 = (ofImage kind image).touched := by
    rw [holds.touched]
    show Array.replicate (Bitmap.empty (windowFor image.size)).size 0 = Bitmap.empty _
    rw [Bitmap.empty, Array.size_replicate]
  rw [Rom.clearTouched, holds.kind, holds.buffer, holds.length, touched]

theorem Holds.window_eq (holds : rom.Holds kind image) :
    rom.window = windowFor image.size := by
  have padded := le_windowFor image.size
  rw [window, holds.buffer]
  simp only [ofImage, Array.size_append, Array.size_replicate]
  omega

theorem Holds.touched_size (holds : rom.Holds kind image) :
    rom.touched.size = (rom.window + 63) / 64 := by
  rw [holds.window_eq, holds.touched]
  exact Array.size_replicate

/-- The byte at an offset of an image that is filled up with zeroes to the next
power of two and then repeats. -/
def padded (image : Array UInt8) (offset : Nat) : UInt8 :=
  image.getD (offset % 2 ^ Nat.clog 2 image.size) 0

theorem Holds.getElem_buffer (holds : rom.Holds kind image) {i : Nat} (inside : i < rom.buffer.size) :
    rom.buffer[i] = image.getD i 0 := by
  have padding : rom.buffer = image ++ Array.replicate (windowFor image.size - image.size) 0 :=
    holds.buffer
  simp only [padding, Array.getElem_append, Array.getElem_replicate, Array.getD]
  rfl

/-- Where an offset lands there is a byte, and a bit to mark it with. -/
theorem Holds.place_lt (holds : rom.Holds kind image) (offset : Nat) :
    rom.place offset < rom.buffer.size ∧ rom.place offset / 64 < rom.touched.size := by
  have window : rom.window = 2 ^ Nat.clog 2 image.size := by
    rw [holds.window_eq, windowFor_eq_clog]
  have inside : rom.place offset < rom.window :=
    Nat.mod_lt _ (by rw [window]; exact Nat.two_pow_pos _)
  refine ⟨inside, ?_⟩
  rw [holds.touched_size]
  omega

/-- Looking at any offset finds the byte of the repeated image. -/
theorem Holds.get_eq_ok (holds : rom.Holds kind image) (offset : Nat) :
    rom.get offset = .ok (padded image offset) := by
  rw [get, Cells.get_eq_ok (holds.place_lt offset).1, holds.getElem_buffer, place,
    holds.window_eq, windowFor_eq_clog, padded]

/-- Reading never fails, finds the byte of the repeated image, and leaves the
image in its socket. -/
theorem Holds.fetch_eq_ok (holds : rom.Holds kind image) (offset : Nat) :
    ∃ changed, rom.fetch offset = .ok (padded image offset, changed) ∧
      changed.Holds kind image := by
  have data : Cells.get rom.buffer (rom.place offset) = .ok (padded image offset) :=
    holds.get_eq_ok offset
  obtain ⟨touched, inserted⟩ := Bitmap.insert_eq_ok (holds.place_lt offset).2
  have fetched : rom.fetch offset = .ok (padded image offset, { rom with touched }) := by
    rw [fetch, inserted, ok_bind, data, ok_bind]
  exact ⟨_, fetched, holds.sameImage (sameImage_of_fetch fetched)⟩

/-- The image is what the socket shows of its buffer. -/
theorem Holds.image_eq (holds : rom.Holds kind image) (short : image.size < 2 ^ 64) :
    rom.image = .ok image := by
  have length : rom.length.toNat = image.size := by
    rw [holds.length]
    exact UInt64.toNat_ofNat_of_lt' short
  have room : image.size ≤ rom.buffer.size := by
    rw [← window, holds.window_eq]
    exact le_windowFor _
  rw [Rom.image, length, if_pos room, holds.buffer]
  simp [ofImage, Array.extract_append]

/-- Attaching leaves the bytes of the source, and of the record at most what
has been read. The kind is not attached. -/
theorem Holds.attach (source : other.Holds kind image) (rom : Rom) :
    (rom.attach other).Holds rom.kind image := by
  refine ⟨rfl, source.buffer, source.length, ?_⟩
  show (if rom.touched.size = other.touched.size then rom.touched
    else Array.replicate other.touched.size 0).size = _
  split
  · rename_i sameRoom
    exact sameRoom.trans source.touched
  · rw [Array.size_replicate]
    exact source.touched

/-- Whatever has become of its bytes, a socket that is given its own image again
is what it was. -/
theorem Holds.attach_eq_self (holds : rom.Holds kind image) (source : other.Holds kind image)
    (bytes : Array UInt8) : ({ rom with buffer := bytes } : Rom).attach other = rom := by
  have sameRoom : rom.touched.size = other.touched.size := holds.touched.trans source.touched.symm
  have sameBuffer : other.buffer = rom.buffer := source.buffer.trans holds.buffer.symm
  have sameLength : other.length = rom.length := source.length.trans holds.length.symm
  rw [Rom.attach, if_pos sameRoom, sameBuffer, sameLength]

end Rom

end Handheld
