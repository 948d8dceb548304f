/-
# The machine

A machine is a core and a board, with the bus transaction between them. This
module has the machine at power-on and what the host may do to it from outside;
time passes in `Machine.step`.
-/

import Handheld.Board.Basic
import Handheld.Core.Interface

namespace Handheld

/-- The name and version under which the program presents itself. -/
def identity : String × String :=
  ("Minx", "0.3.1")

/-- A core and everything around it. -/
structure Machine (σ : Type) where
  core : σ
  board : Board
  settings : Settings
  bus : Transaction
  running : Bool
  /-- The stack pointer that halted the machine. -/
  haltedAt : Option UInt16

namespace Machine

variable {σ : Type} [Core σ]

/-- Show the keys to the core, if they are wired to it. -/
def forwardKeys (machine : Machine σ) : Machine σ :=
  if machine.settings.forwardKeys then
    let keys := machine.board.registers.keys.withoutPower
    { machine with core := Core.setKeys keys.bits machine.core }
  else machine

/-- Put the core into reset with its clocks low. -/
def holdReset (machine : Machine σ) : Machine σ :=
  let core := Core.setRealTimeClock false (Core.setClock false (Core.setReset true machine.core))
  let machine := forwardKeys { machine with core }
  { machine with core := Core.settle machine.core }

/-- A machine at power-on. -/
def start (core : σ) (settings : Settings) : Machine σ :=
  holdReset
    { core, settings
      board := .initial settings
      bus := .initial
      running := true
      haltedAt := none }

/-- Back to power-on: images and cycle table stay, the core goes into reset. -/
def reset (machine : Machine σ) : Machine σ :=
  holdReset
    { machine with
      board := machine.board.powerOn machine.settings
      bus := .initial
      haltedAt := none }

/-- Press exactly these keys. -/
def setKeys (machine : Machine σ) (keys : Keys) : Machine σ :=
  forwardKeys { machine with board := machine.board.setKeys keys }

/-- Put a boot image into its socket. -/
def loadBios (machine : Machine σ) (image : Array UInt8) : Except Error (Machine σ) := do
  let bios ← Rom.bios image
  .ok { machine with board := { machine.board with bios } }

/-- Put a cartridge image into its socket. -/
def loadCartridge (machine : Machine σ) (image : Array UInt8) : Except Error (Machine σ) := do
  let cartridge ← Rom.cartridge image
  .ok { machine with board := { machine.board with cartridge } }

/-- Use another cycle table. -/
def setTable (machine : Machine σ) (table : CycleTable) : Machine σ :=
  { machine with board := machine.board.setTable table }

/-- Pause the machine or let it run. -/
def setRunning (machine : Machine σ) (running : Bool) : Machine σ :=
  { machine with running }

/-- Whether a stack overflow has halted the machine. -/
def isHalted (machine : Machine σ) : Bool :=
  machine.haltedAt.isSome

/-- Write a register from outside. -/
def pokeRegister (machine : Machine σ) (offset data : UInt8) :
    Checked (RegisterWrite × Machine σ) := do
  let (write, board) ← machine.board.writeRegister offset data
  .ok (write, { machine with board })

/-- Latch interrupts from outside. -/
def raise (machine : Machine σ) (offset mask : UInt8) : Checked (Bool × Machine σ) := do
  let (raised, registers) ← machine.board.registers.raise offset mask
  .ok (raised, { machine with board := { machine.board with registers } })

/-- Ask whether there is something new to draw; asking takes the request. -/
def takeRedraw (machine : Machine σ) : Bool × Machine σ :=
  let (redraw, screen) := machine.board.screen.takeRedraw
  (redraw, { machine with board := { machine.board with screen } })

end Machine

end Handheld
