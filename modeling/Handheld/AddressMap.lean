/-
# The address map

The address bus has 21 lines. Its space is cut into four windows: the boot
image, working memory, the hardware registers and the cartridge. Decoding walks
the windows in order and never fails; an address resolves to a region and an
offset inside the buffer behind it. Buffers of the two images are kept at
power-of-two sizes, so that a mask repeats them over their window.
-/

import Handheld.Enumeration

namespace Handheld

/-- What answers on a part of the bus. -/
inductive Region
  | bios
  | ram
  | registers
  | cartridge
  deriving DecidableEq, Repr, Inhabited

instance : Enumeration Region where
  members := [.bios, .ram, .registers, .cartridge]
  name
    | .bios => "Bios"
    | .ram => "Ram"
    | .registers => "Registers"
    | .cartridge => "Cartridge"

/-- A range of addresses, both ends included, and its region. -/
structure Window where
  first : UInt32
  last : UInt32
  region : Region
  deriving DecidableEq, Repr

/-- Whether an address lies in a window. The address is taken as it is. -/
def Window.contains (window : Window) (address : UInt32) : Bool :=
  window.first ≤ address && address ≤ window.last

/-- The address lines that exist. -/
def busMask : UInt32 := 0x1FFFFF

/-- The four windows, in ascending order. -/
def addressMap : List Window :=
  [ ⟨0x0000, 0x0FFF, .bios⟩,
    ⟨0x1000, 0x1FFF, .ram⟩,
    ⟨0x2000, 0x20FF, .registers⟩,
    ⟨0x2100, 0x1FFFFF, .cartridge⟩ ]

/-- The region that answers at an address. -/
def regionOf (address : UInt32) : Region :=
  match addressMap.find? (·.contains (address &&& busMask)) with
  | some window => window.region
  | none => .cartridge

/-- A region and an offset inside its buffer. -/
structure Location where
  region : Region
  offset : Nat
  deriving DecidableEq, Repr

/-- The mask that repeats a buffer of `length` bytes over its window. Only the
low 32 bits of the greatest offset take part. -/
def sizeMask (length : Nat) : UInt32 :=
  if length = 0 then 0 else UInt32.ofNat (length - 1)

/-- Resolve an address, given the sizes of the boot and cartridge buffers. -/
def decode (address : UInt32) (biosLength cartridgeLength : Nat) : Location :=
  let line := address &&& busMask
  let region := regionOf address
  let offset := match region with
    | .bios => line &&& sizeMask biosLength
    | .ram => line &&& 0xFFF
    | .registers => line &&& 0xFF
    | .cartridge => line &&& sizeMask cartridgeLength
  ⟨region, offset.toNat⟩

end Handheld
