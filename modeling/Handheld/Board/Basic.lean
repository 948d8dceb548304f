/-
# The board

Everything on the far side of the core's bus: memories, registers, audit and
screen, together with the timestamp and the oscillator. Operations report what
happened and change the state; they say nothing themselves.
-/

import Handheld.AddressMap
import Handheld.Audit.Coverage
import Handheld.Bus
import Handheld.Clock
import Handheld.Register.Bank
import Handheld.Rom
import Handheld.Settings

namespace Handheld

/-- Counts of the bus conditions that are not errors. -/
structure Incidents where
  illegalWrites : UInt64 := 0
  droppedWrites : UInt64 := 0
  unknownWrites : UInt64 := 0
  timerReads : UInt64 := 0
  bankHits : UInt64 := 0
  lcdHazards : UInt64 := 0
  deriving DecidableEq, Repr

/-- A detector of rising edges on a line. -/
structure EdgeDetector where
  level : Bool := false
  deriving DecidableEq, Repr

/-- Sample the line, and say whether it has risen since the last sample. -/
def EdgeDetector.sample (detector : EdgeDetector) (level : Bool) : Bool × EdgeDetector :=
  (level && !detector.level, ⟨level⟩)

/-- The state of the board. -/
structure Board where
  ram : Ram
  bios : Rom
  cartridge : Rom
  registers : RegisterBank
  audit : Audit
  screen : Screen
  incidents : Incidents
  oscillator : Oscillator
  renderDone : EdgeDetector
  copyComplete : EdgeDetector
  ticks : UInt64

/-- Where the byte of a read came from. -/
inductive Origin
  | bios (kind : RomKind) (offset : Nat)
  | ram (offset : Nat)
  | register (offset : UInt8)
  | cartridge (kind : RomKind) (offset : Nat)
  deriving DecidableEq, Repr

/-- The report of a bus read. -/
structure Fetch where
  address : UInt32
  codeBank : UInt8
  origin : Origin
  data : UInt8
  deriving DecidableEq, Repr

/-- The report of a bus write. -/
inductive Store
  /-- Images cannot be written. -/
  | refused (region : Region) (address : UInt32)
  | ram (offset : Nat) (data : UInt8)
  | register (write : RegisterWrite)
  deriving DecidableEq, Repr

/-- Which of the core's lines have risen. -/
structure Edges where
  renderDone : Bool
  copyComplete : Bool
  deriving DecidableEq, Repr

/-- The report of a frame: its number and the contrast it was shown with. -/
structure Presentation where
  frames : UInt64
  contrast : UInt8
  deriving DecidableEq, Repr

namespace Board

/-- The state at power-on, with both sockets empty. -/
def initial (settings : Settings) : Board where
  ram := .cleared
  bios := .empty .bios
  cartridge := .empty .cartridge
  registers := .initial
  audit := .initial .blank settings.stackLimit
  screen := .blank settings.orientation
  incidents := {}
  oscillator := .start settings.coreClockHz settings.realTimeClockHz
  renderDone := {}
  copyComplete := {}
  ticks := 0

/-- The state at power-on with the same images and cycle table. Coverage starts
over. -/
def powerOn (board : Board) (settings : Settings) : Board :=
  { initial settings with
    bios := board.bios.clearTouched
    cartridge := board.cartridge.clearTouched
    audit := .initial board.audit.table settings.stackLimit }

/-- Take over the images of another board, as a snapshot carries none. -/
def attachImages (board source : Board) : Board :=
  { board with
    bios := board.bios.attach source.bios
    cartridge := board.cartridge.attach source.cartridge }

/-- Use another cycle table. -/
def setTable (board : Board) (table : CycleTable) : Board :=
  { board with audit := { board.audit with table } }

/-- Press exactly these keys. -/
def setKeys (board : Board) (keys : Keys) : Board :=
  { board with registers := board.registers.setKeys keys }

/-- Resolve an address with the images in place. -/
def locate (board : Board) (address : UInt32) : Location :=
  decode address board.bios.window board.cartridge.window

/-- Whether a cartridge read would need the code bank, which is not modelled. -/
def needsBank (address : UInt32) (codeBank : UInt8) : Bool :=
  address &&& 0x8000 != 0 && 0 < codeBank

/-- Count the read of a timer register. -/
def countTimerRead (incidents : Incidents) (offset : UInt8) : Checked Incidents :=
  if Register.isTimer offset then do
    let timerReads ← add64 incidents.timerReads 1
    .ok { incidents with timerReads }
  else .ok incidents

/-- Count a cartridge read that would need the code bank. -/
def countBankHit (incidents : Incidents) (address : UInt32) (codeBank : UInt8) :
    Checked Incidents :=
  if needsBank address codeBank then do
    let bankHits ← add64 incidents.bankHits 1
    .ok { incidents with bankHits }
  else .ok incidents

/-- Serve a bus read. -/
def fetch (board : Board) (bus : Transaction) (codeBank : UInt8) : Checked (Fetch × Board) :=
  let ⟨region, offset⟩ := board.locate bus.address
  let report (origin : Origin) (data : UInt8) : Fetch := ⟨bus.address, codeBank, origin, data⟩
  match region with
  | .bios => do
    let (data, bios) ← board.bios.fetch offset
    .ok (report (.bios bios.kind offset) data, { board with bios })
  | .ram => do
    let data ← board.ram.read offset
    .ok (report (.ram offset) data, board)
  | .registers => do
    let register := UInt8.ofNat offset
    let incidents ← countTimerRead board.incidents register
    let data ← board.registers.read register
    .ok (report (.register register) data, { board with incidents })
  | .cartridge => do
    let incidents ← countBankHit board.incidents bus.address codeBank
    let (data, cartridge) ← board.cartridge.fetch offset
    .ok (report (.cartridge cartridge.kind offset) data, { board with incidents, cartridge })

/-- Count what a register write reports. -/
def countWrite (incidents : Incidents) (write : RegisterWrite) : Checked Incidents := do
  let incidents ←
    match write.outcome with
    | .unknown => do
      let unknownWrites ← add64 incidents.unknownWrites 1
      .ok { incidents with unknownWrites }
    | .readOnly | .dropped => do
      let droppedWrites ← add64 incidents.droppedWrites 1
      .ok { incidents with droppedWrites }
    | .stored | .acknowledged | .rematched => .ok incidents
  if write.lcd.any Lcd.Command.isHazard then do
    let lcdHazards ← add64 incidents.lcdHazards 1
    .ok { incidents with lcdHazards }
  else .ok incidents

/-- Write a register and count what is remarkable about it. -/
def writeRegister (board : Board) (offset data : UInt8) : Checked (RegisterWrite × Board) := do
  let (write, registers) ← board.registers.write offset data
  let incidents ← countWrite board.incidents write
  .ok (write, { board with registers, incidents })

/-- Serve a bus write. -/
def store (board : Board) (bus : Transaction) : Checked (Store × Board) :=
  let ⟨region, offset⟩ := board.locate bus.address
  match region with
  | .bios | .cartridge => do
    let illegalWrites ← add64 board.incidents.illegalWrites 1
    .ok (.refused region bus.address,
      { board with incidents := { board.incidents with illegalWrites } })
  | .ram => do
    let ram ← board.ram.write offset bus.data
    .ok (.ram offset bus.data, { board with ram })
  | .registers => do
    let (write, board) ← board.writeRegister (UInt8.ofNat offset) bus.data
    .ok (.register write, board)

/-- The byte that the core would read, without any effect. -/
def view (board : Board) (address : UInt32) : Checked UInt8 :=
  let ⟨region, offset⟩ := board.locate address
  match region with
  | .bios => board.bios.get offset
  | .ram => board.ram.read offset
  | .registers => board.registers.read (UInt8.ofNat offset)
  | .cartridge => board.cartridge.get offset

/-- Pass half a cycle, and give the oscillator's new level if it toggled. -/
def halfCycle (board : Board) : Checked (Option Bool × Board) := do
  let (toggled, oscillator) ← board.oscillator.due board.ticks
  let ticks ← add64 board.ticks 1
  .ok (toggled, { board with oscillator, ticks })

/-- The registers' share of a core cycle. -/
def tickRegisters (board : Board) (settings : Settings) : Checked (Option RefreshTick × Board) := do
  let onSeconds := onSecondsInterval board.ticks settings.secondsTickHalfCycles
  let onRefresh := onRefreshInterval board.ticks settings.refreshTickCycles
  let (tick, registers) ← board.registers.tick onSeconds onRefresh
  .ok (tick, { board with registers })

/-- Latch an interrupt if its line has risen. -/
def latch (registers : RegisterBank) (rose : Bool) (source : Interrupt.Sources) :
    Checked RegisterBank :=
  if rose then do
    let (_, registers) ← registers.raise Register.irqAct1 source.bits
    .ok registers
  else .ok registers

/-- Sample the core's interrupt lines and latch those that have risen. -/
def latchEdges (board : Board) (probes : Probes) : Checked (Edges × Board) := do
  let (renderRose, renderDone) := board.renderDone.sample probes.irqRenderDone
  let (copyRose, copyComplete) := board.copyComplete.sample probes.irqCopyComplete
  let registers ← latch board.registers renderRose .renderDone
  let registers ← latch registers copyRose .copyComplete
  .ok (⟨renderRose, copyRose⟩, { board with registers, renderDone, copyComplete })

/-- Show a frame. Without display memory from the core the background is
composed from the tile map, and without a contrast from the core the one of the
LCD control register holds. -/
def present (board : Board) (memory : Option (Array UInt8)) (contrast : Option UInt8) :
    Checked (Presentation × Board) := do
  let contrast := contrast.getD board.registers.lcd.contrast
  let (planar, ram) ←
    match memory with
    | some planar => .ok (planar, board.ram)
    | none => board.registers.refresh.compose board.ram
  let screen ← board.screen.present planar contrast
  .ok (⟨screen.frames, contrast⟩, { board with ram, screen })

/-- Draw up the coverage report. -/
def coverage (board : Board) : Checked Coverage :=
  board.audit.coverage board.bios board.cartridge

end Board

end Handheld
