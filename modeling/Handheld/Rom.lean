/-
# Read-only images

An image is kept in a buffer padded with zeroes to a power of two, so that a
buffer repeats over its window, together with the set of buffer offsets that
the core has read. A snapshot does not carry the bytes: a restored image has an
empty buffer until the bytes of another one are attached to it.
-/

import Handheld.Bitmap
import Handheld.Error

namespace Handheld

/-- Which socket an image sits in. -/
inductive RomKind
  | bios
  | cartridge
  deriving DecidableEq, Repr, Inhabited

instance : Enumeration RomKind where
  members := [.bios, .cartridge]
  name
    | .bios => "Bios"
    | .cartridge => "Cartridge"

/-- An image: its padded bytes, its own length, and the offsets read so far. -/
structure Rom where
  kind : RomKind
  buffer : Array UInt8
  length : UInt64
  touched : Array UInt64
  deriving DecidableEq

namespace Rom

/-- The largest cartridge, in bytes. -/
def cartridgeLimit : Nat := 0x200000

/-- An empty socket answers with zero everywhere. -/
def empty (kind : RomKind) : Rom :=
  ⟨kind, #[0], 0, #[0]⟩

/-- The size of the buffer for an image of a given length: the next power of two. -/
def windowFor (length : Nat) : Nat :=
  if length ≤ 1 then 1 else 1 <<< (Nat.log2 (length - 1) + 1)

/-- Pad an image to a power of two. -/
def ofImage (kind : RomKind) (image : Array UInt8) : Rom :=
  let window := windowFor image.size
  { kind
    buffer := image ++ Array.replicate (window - image.size) 0
    length := UInt64.ofNat image.size
    touched := Bitmap.empty window }

/-- A boot image, which must not be empty. -/
def bios (image : Array UInt8) : Except Error Rom :=
  if image.isEmpty then .error .emptyBios else .ok (ofImage .bios image)

/-- A cartridge image, which must fit the cartridge window. -/
def cartridge (image : Array UInt8) : Except Error Rom :=
  if cartridgeLimit < image.size then .error (.cartridgeTooLarge image.size)
  else .ok (ofImage .cartridge image)

/-- The size of the repeated buffer. -/
def window (rom : Rom) : Nat :=
  rom.buffer.size

/-- Where an offset lands in the buffer. The window is a power of two, so this
is also what a mask would give. -/
def place (rom : Rom) (offset : Nat) : Nat :=
  offset % rom.window

/-- The byte at an offset, for an observer. -/
def get (rom : Rom) (offset : Nat) : Checked UInt8 :=
  Cells.get rom.buffer (rom.place offset)

/-- The byte at an offset, read over the bus: the offset becomes touched. -/
def fetch (rom : Rom) (offset : Nat) : Checked (UInt8 × Rom) := do
  let touched ← Bitmap.insert rom.touched (rom.place offset)
  let data ← Cells.get rom.buffer (rom.place offset)
  .ok (data, { rom with touched })

/-- Whether an offset has been read over the bus. -/
def isTouched (rom : Rom) (offset : Nat) : Checked Bool :=
  Bitmap.contains rom.touched (rom.place offset)

/-- Add the number of touched offsets below `n` to `count`. -/
def countTouched (rom : Rom) : Nat → Nat → Checked Nat
  | 0, count => .ok count
  | n + 1, count => do
    let touched ← rom.isTouched n
    rom.countTouched n (if touched then count + 1 else count)

/-- The number of distinct image bytes read so far. -/
def touchedCount (rom : Rom) : Checked Nat :=
  rom.countTouched rom.length.toNat 0

/-- Forget what has been read. -/
def clearTouched (rom : Rom) : Rom :=
  { rom with touched := .replicate rom.touched.size 0 }

/-- The image without its padding. -/
def image (rom : Rom) : Checked (Array UInt8) :=
  if rom.length.toNat ≤ rom.buffer.size then .ok (rom.buffer.extract 0 rom.length.toNat)
  else .error .outOfBounds

/-- Attach the bytes of another image. What has been read is kept if both sets
have the same number of words, and forgotten otherwise. -/
def attach (rom source : Rom) : Rom :=
  { kind := rom.kind
    buffer := source.buffer
    length := source.length
    touched :=
      if rom.touched.size = source.touched.size then rom.touched
      else .replicate source.touched.size 0 }

end Rom

end Handheld
