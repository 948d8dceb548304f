/-
# Snapshots

A snapshot is the wire form of the board. It carries neither the bytes of the
images nor the core; a machine that restores one keeps its own.
-/

import Handheld.Machine.Basic
import Handheld.Wire.Records

namespace Handheld

/-- Read a value from the front of the bytes; what follows it is ignored. -/
def Wire.decode {α : Type} [Wire α] (bytes : List UInt8) : Except Error α :=
  match Wire.read bytes with
  | .ok (value, _) => .ok value
  | .error failure => .error (.snapshot failure)

namespace Machine

variable {σ : Type}

/-- The bytes of a snapshot. -/
def snapshot (machine : Machine σ) : List UInt8 :=
  Wire.write machine.board

/-- The size of a snapshot. -/
def snapshotSize (machine : Machine σ) : Nat :=
  machine.snapshot.length

/-- Write a snapshot over the front of a buffer, which must have room for it,
and give the number of bytes used. -/
def save (machine : Machine σ) (buffer : List UInt8) : Except Error (Nat × List UInt8) :=
  let bytes := machine.snapshot
  if bytes.length ≤ buffer.length then .ok (bytes.length, bytes ++ buffer.drop bytes.length)
  else .error (.snapshot .bufferFull)

/-- Take over the board of a snapshot, with the machine's own images. -/
def restore (machine : Machine σ) (bytes : List UInt8) : Except Error (Machine σ) := do
  let (board : Board) ← Wire.decode bytes
  .ok { machine with board := board.attachImages machine.board }

end Machine

end Handheld
