/-
# The key pad

Eight keys, one bit each. The pad remembers which are pressed; the register
that the core reads is active low.
-/

import Handheld.FlagSet

namespace Handheld

/-- A set of keys. -/
structure Keys where
  bits : UInt8
  deriving DecidableEq, Repr

namespace Keys

instance : FlagSet Keys where
  names :=
    [ ("a", 0x01), ("b", 0x02), ("c", 0x04), ("up", 0x08),
      ("down", 0x10), ("left", 0x20), ("right", 0x40), ("power", 0x80) ]
  bits := Keys.bits
  ofBits := Keys.mk

/-- No key. -/
def none : Keys := ⟨0⟩

/-- The keys that are wired to the core: all but the power key. -/
def withoutPower (keys : Keys) : Keys :=
  ⟨keys.bits &&& 0x7F⟩

end Keys

/-- The latch of the key pad. -/
structure KeyPad where
  pressed : Keys
  deriving DecidableEq, Repr

namespace KeyPad

/-- No key pressed. -/
def released : KeyPad := ⟨.none⟩

/-- The byte that the core reads: a pressed key is a cleared bit. -/
def latch (pad : KeyPad) : UInt8 :=
  ~~~pad.pressed.bits

end KeyPad

end Handheld
