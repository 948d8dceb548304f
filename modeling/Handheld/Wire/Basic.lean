/-
# The wire format

A compact byte format without names or framing. A byte is written raw; wider
numbers are written seven bits at a time, low bits first, with the top bit of
every byte but the last set; a truth value is 0 or 1; an alternative is its
number, followed by what it carries; a sequence is its length followed by its
items; a record is its fields in order.

A reader gives back the bytes that it did not use. It fails at the first place
that does not fit, and only a reader that runs out of bytes fails with
`Failure.endOfBytes`.
-/

import Handheld.Enumeration

namespace Handheld

namespace Wire

/-- Why a snapshot cannot be read or written. -/
inductive Failure
  | endOfBytes
  | unterminatedNumber
  | notATruthValue
  | noSuchAlternative
  | bufferFull
  deriving DecidableEq, Repr, Inhabited

/-- The wording of a failure. -/
def Failure.message : Failure → String
  | .endOfBytes => "Hit the end of buffer, expected more data"
  | .unterminatedNumber =>
    "Found a varint that didn't terminate. Is the usize too big for this platform?"
  | .notATruthValue => "Found a bool that wasn't 0 or 1"
  | .noSuchAlternative => "Serde Deserialization Error"
  | .bufferFull => "The serialize buffer is full"

/-- Read a value from the front of the bytes and give back the rest. -/
abbrev Reader (α : Type) := List UInt8 → Except Failure (α × List UInt8)

end Wire

/-- A type with a wire form. -/
class Wire (α : Type) where
  write : α → List UInt8
  read : Wire.Reader α

namespace Wire

variable {α β : Type}

/-- A number in groups of seven bits, low group first. -/
def writeGroups (n : Nat) : List UInt8 :=
  if h : n < 128 then [UInt8.ofNat n]
  else UInt8.ofNat (n % 128 + 128) :: writeGroups (n / 128)
termination_by n
decreasing_by omega

/-- Read at most `groups` groups, of which a full-length last one is at most
`lastMax`. Zero groups in front of the end are accepted. -/
def readGroups (lastMax : Nat) : Nat → Reader Nat
  | 0, _ => .error .unterminatedNumber
  | _ + 1, [] => .error .endOfBytes
  | groups + 1, byte :: rest =>
    if byte.toNat < 128 then
      if groups = 0 ∧ lastMax < byte.toNat then .error .unterminatedNumber
      else .ok (byte.toNat, rest)
    else do
      let (high, rest) ← readGroups lastMax groups rest
      .ok (byte.toNat % 128 + 128 * high, rest)

instance : Wire UInt8 where
  write byte := [byte]
  read
    | [] => .error .endOfBytes
    | byte :: rest => .ok (byte, rest)

instance : Wire UInt16 where
  write n := writeGroups n.toNat
  read bytes := do
    let (n, rest) ← readGroups 3 3 bytes
    .ok (UInt16.ofNat n, rest)

instance : Wire UInt32 where
  write n := writeGroups n.toNat
  read bytes := do
    let (n, rest) ← readGroups 15 5 bytes
    .ok (UInt32.ofNat n, rest)

instance : Wire UInt64 where
  write n := writeGroups n.toNat
  read bytes := do
    let (n, rest) ← readGroups 1 10 bytes
    .ok (UInt64.ofNat n, rest)

instance : Wire Bool where
  write b := [if b then 1 else 0]
  read
    | [] => .error .endOfBytes
    | byte :: rest =>
      if byte = 0 then .ok (false, rest)
      else if byte = 1 then .ok (true, rest)
      else .error .notATruthValue

instance [Wire α] [Wire β] : Wire (α × β) where
  write pair := write pair.1 ++ write pair.2
  read bytes := do
    let (a, rest) ← read bytes
    let (b, rest) ← read rest
    .ok ((a, b), rest)

/-- The wire form of a type that is written as another one. -/
@[reducible]
def along [Wire β] (encode : α → β) (decode : β → α) : Wire α where
  write a := write (encode a)
  read bytes := do
    let (b, rest) ← read bytes
    .ok (decode b, rest)

/-- An alternative without content is its number. -/
@[reducible]
def alternative [Enumeration α] [DecidableEq α] : Wire α where
  write a := write (UInt32.ofNat (Enumeration.number a))
  read bytes := do
    let ((n : UInt32), rest) ← read bytes
    match Enumeration.ofNumber? n.toNat with
    | some a => .ok (a, rest)
    | none => .error .noSuchAlternative

/-- Read a known number of items, after those in hand. -/
def readItems [Wire α] : Nat → Array α → Reader (Array α)
  | 0, items, bytes => .ok (items, bytes)
  | n + 1, items, bytes => do
    let (item, rest) ← read bytes
    readItems n (items.push item) rest

instance [Wire α] : Wire (Array α) where
  write items := write (UInt64.ofNat items.size) ++ items.toList.flatMap write
  read bytes := do
    let ((n : UInt64), rest) ← read bytes
    readItems n.toNat #[] rest

end Wire

end Handheld
