/-
# The register bank

Most registers are a stored byte. Some belong to a device, and then reads are
served from the device while the bank keeps the byte of the last write. A write
reports what became of it; the bank formats nothing.
-/

import Handheld.KeyPad
import Handheld.Lcd.Controller
import Handheld.RefreshController
import Handheld.Register.Interrupt
import Handheld.Register.Names
import Handheld.SecondsCounter

namespace Handheld

/-- What became of a register write. -/
inductive WriteClass
  | stored
  /-- Write-one-to-clear on an interrupt latch. -/
  | acknowledged
  /-- A rate write that changed the coarse bits. -/
  | rematched
  | readOnly
  /-- Stored in a register whose function is not known. -/
  | unknown
  | dropped
  deriving DecidableEq, Repr, Inhabited

instance : Enumeration WriteClass where
  members := [.stored, .acknowledged, .rematched, .readOnly, .unknown, .dropped]
  name
    | .stored => "Stored"
    | .acknowledged => "Acknowledged"
    | .rematched => "Rematched"
    | .readOnly => "ReadOnly"
    | .unknown => "Unknown"
    | .dropped => "Dropped"

/-- The report of a register write. `stored` is the byte left in the bank, if
the write had an effect. -/
structure RegisterWrite where
  offset : UInt8
  data : UInt8
  stored : Option UInt8
  outcome : WriteClass
  lcd : Option Lcd.Command
  deriving DecidableEq, Repr

/-- The stored bytes and the devices behind the register window. -/
structure RegisterBank where
  cells : Array UInt8
  seconds : SecondsCounter
  refresh : RefreshController
  lcd : Lcd.Controller
  keyPad : KeyPad
  deriving DecidableEq

namespace RegisterBank

/-- The number of registers. -/
def size : Nat := 0x100

/-- The state at power-on. -/
def initial : RegisterBank :=
  ⟨.replicate size 0, .initial, .initial, .initial, .released⟩

/-- The byte that the core reads. -/
def read (bank : RegisterBank) (offset : UInt8) : Checked UInt8 :=
  match Register.role offset with
  | .secondsControl => .ok bank.seconds.control
  | .secondsByte index => .ok (bank.seconds.byte index)
  | .keyPad => .ok bank.keyPad.latch
  | .refreshMode => .ok bank.refresh.mode
  | .refreshRate => .ok bank.refresh.rate
  | _ => Cells.get bank.cells offset.toNat

/-- The effect of a write on the devices, and the byte to store. -/
def applyWrite (bank : RegisterBank) (offset data : UInt8) :
    Checked (RegisterWrite × RegisterBank) :=
  let report (stored : Option UInt8) (outcome : WriteClass) : RegisterWrite :=
    ⟨offset, data, stored, outcome, none⟩
  match Register.role offset with
  | .secondsControl =>
    let seconds := bank.seconds.setControl data
    .ok (report (some seconds.control) .stored, { bank with seconds })
  | .secondsByte _ => .ok (report none .readOnly, bank)
  | .keyPad => .ok (report none .readOnly, bank)
  | .cartridgeBus => .ok (report none .readOnly, bank)
  | .interruptLatch => do
    let latched ← Cells.get bank.cells offset.toNat
    .ok (report (some (Interrupt.acknowledge latched data)) .acknowledged, bank)
  | .refreshMode =>
    let refresh := bank.refresh.setMode data
    .ok (report (some refresh.mode) .stored, { bank with refresh })
  | .refreshRate =>
    let (rematched, refresh) := bank.refresh.writeRate data
    let outcome := if rematched then .rematched else .stored
    .ok (report (some refresh.rate) outcome, { bank with refresh })
  | .mapByte index =>
    .ok (report (some data) .stored, { bank with refresh := bank.refresh.setMapByte index data })
  | .lcdControl =>
    let (command, lcd) := bank.lcd.command data
    .ok (⟨offset, data, some data, .stored, some command⟩, { bank with lcd })
  | .plain => .ok (report (some data) .stored, bank)
  | .unknown => .ok (report (some data) .unknown, bank)
  | .absent => .ok (report none .dropped, bank)

/-- Leave a byte in the bank, if there is one to leave. -/
def store (bank : RegisterBank) (offset : UInt8) : Option UInt8 → Checked RegisterBank
  | none => .ok bank
  | some byte => do
    let cells ← Cells.set bank.cells offset.toNat byte
    .ok { bank with cells }

/-- Write a register. -/
def write (bank : RegisterBank) (offset data : UInt8) :
    Checked (RegisterWrite × RegisterBank) := do
  let (report, bank) ← bank.applyWrite offset data
  let bank ← bank.store offset report.stored
  .ok (report, bank)

/-- Latch interrupts, and say whether the register is an interrupt latch. -/
def raise (bank : RegisterBank) (offset mask : UInt8) : Checked (Bool × RegisterBank) :=
  match Register.role offset with
  | .interruptLatch => do
    let latched ← Cells.get bank.cells offset.toNat
    let cells ← Cells.set bank.cells offset.toNat (Interrupt.raise latched mask)
    .ok (true, { bank with cells })
  | _ => .ok (false, bank)

/-- One core cycle: the seconds counter always runs, the refresh controller
only when its divider fires. -/
def tick (bank : RegisterBank) (onSeconds onRefresh : Bool) :
    Checked (Option RefreshTick × RegisterBank) := do
  let seconds ← bank.seconds.tick onSeconds
  if onRefresh then
    let (tick, refresh) := bank.refresh.tick
    .ok (some tick, { bank with seconds, refresh })
  else .ok (none, { bank with seconds })

/-- The keys that are pressed. -/
def keys (bank : RegisterBank) : Keys :=
  bank.keyPad.pressed

/-- Press exactly these keys. -/
def setKeys (bank : RegisterBank) (keys : Keys) : RegisterBank :=
  { bank with keyPad := ⟨keys⟩ }

end RegisterBank

end Handheld
