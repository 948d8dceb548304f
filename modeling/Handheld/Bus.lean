/-
# Bus transactions

The core drives two status lines that say what kind of cycle it wants, and the
board latches one transaction at a time.
-/

import Handheld.AddressMap
import Handheld.Text.Digits

namespace Handheld

/-- The kind of cycle that the core's status lines ask for. -/
inductive BusStatus
  | idle
  | irqRead
  | memWrite
  | memRead
  deriving DecidableEq, Repr, Inhabited

namespace BusStatus

instance : Enumeration BusStatus where
  members := [.idle, .irqRead, .memWrite, .memRead]
  name
    | .idle => "Idle"
    | .irqRead => "IrqRead"
    | .memWrite => "MemWrite"
    | .memRead => "MemRead"

/-- Decode the two status lines. Higher bits are not lines. -/
def ofBits (bits : UInt8) : BusStatus :=
  match (bits &&& 0b11).toNat with
  | 0b00 => .idle
  | 0b01 => .irqRead
  | 0b10 => .memWrite
  | _ => .memRead

/-- The levels of the two status lines. -/
def bits : BusStatus → UInt8
  | .idle => 0b00
  | .irqRead => 0b01
  | .memWrite => 0b10
  | .memRead => 0b11

end BusStatus

/-- Which way a transaction moves its byte, seen from the core. -/
inductive Direction
  | read
  | write
  deriving DecidableEq, Repr, Inhabited

instance : Enumeration Direction where
  members := [.read, .write]
  name
    | .read => "Read"
    | .write => "Write"

/-- One transaction latched from the core's bus lines. -/
structure Transaction where
  address : UInt32
  data : UInt8
  direction : Direction
  deriving DecidableEq, Repr

namespace Transaction

/-- A transaction on the lines that exist. -/
def on (address : UInt32) (direction : Direction) (data : UInt8) : Transaction :=
  ⟨address &&& busMask, data, direction⟩

/-- A read, before its byte has arrived. -/
def read (address : UInt32) : Transaction :=
  on address .read 0

/-- A write of `data`. -/
def write (address : UInt32) (data : UInt8) : Transaction :=
  on address .write data

/-- What the latch holds at power-on. -/
def initial : Transaction :=
  read 0

/-- Whether the byte goes to the board. -/
def isWrite (transaction : Transaction) : Bool :=
  transaction.direction = .write

/-- Put a byte on the data lines. -/
def withData (transaction : Transaction) (data : UInt8) : Transaction :=
  { transaction with data := data }

/-- The transaction as messages show it. -/
def text (transaction : Transaction) : String :=
  "\x7b addr:" ++ Digits.hex 6 transaction.address.toNat ++
    " data:" ++ Digits.hex 2 transaction.data.toNat ++
    " dir:" ++ Enumeration.name transaction.direction ++ " \x7d"

end Transaction

end Handheld
