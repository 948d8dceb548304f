/-
# Sets of flags

A byte whose bits have names. As a text a set is the names of its bits between
bars, followed by the bits without a name in hexadecimal.
-/

import Handheld.Text.Blank
import Handheld.Text.Digits

namespace Handheld

/-- A type that is a set of named bits of one byte. Bits without a name are
kept. -/
class FlagSet (α : Type) where
  /-- The named bits, in the order in which texts list them. -/
  names : List (String × UInt8)
  bits : α → UInt8
  ofBits : UInt8 → α

namespace FlagSet

variable {α : Type} [FlagSet α]

/-- The names of the bits that are set, then the bits without a name. -/
def text (flags : α) : String :=
  let bits := bits flags
  let present := (names α).filter fun (_, bit) => bits &&& bit == bit
  let rest := present.foldl (fun rest (_, bit) => rest &&& ~~~bit) bits
  " | ".intercalate
    (present.map Prod.fst ++
      if rest = 0 then [] else ["0x" ++ Digits.hex 1 rest.toNat])

/-- A single flag: its name, or its bits in hexadecimal. -/
def flag? (α : Type) [FlagSet α] (text : List Char) : Option UInt8 :=
  match text with
  | '0' :: 'x' :: digits => (Digits.below? 0x100 16 digits).map UInt8.ofNat
  | _ => (names α).lookup (String.ofList text)

/-- The flags that a text lists between bars. -/
def ofText? (text : String) : Option α := do
  let whole := Text.trim text.toList
  let parts := if whole.isEmpty then [] else Text.splitAtEach (· == '|') whole
  let bits ← parts.mapM fun part => flag? α (Text.trim part)
  some (ofBits (bits.foldl (· ||| ·) 0))

end FlagSet

end Handheld
