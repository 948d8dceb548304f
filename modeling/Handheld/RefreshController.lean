/-
# The refresh controller

Every tick advances a frame counter. While the fine nibble of the rate differs
from the match value that its coarse bits select, each full count moves the fine
nibble one step up: the controller hunts. Once they match, an active controller
completes a frame on the next tick, and an inactive one waits for the counter to
expire; either way the hunt starts over.

Without display memory of its own, the controller can compose the background
from a tile map in working memory.
-/

import Handheld.Enumeration
import Handheld.Lcd.Screen
import Handheld.Ram

namespace Handheld

/-- What a tick of the refresh controller did. -/
inductive RefreshTick
  | counting
  /-- The fine nibble moved one step towards the match value. -/
  | hunt
  /-- The counter expired on a match without an active controller. -/
  | wrap
  | frame
  deriving DecidableEq, Repr, Inhabited

instance : Enumeration RefreshTick where
  members := [.counting, .hunt, .wrap, .frame]
  name
    | .counting => "Counting"
    | .hunt => "Hunt"
    | .wrap => "Wrap"
    | .frame => "Frame"

/-- The state of the refresh controller. -/
structure RefreshController where
  mode : UInt8
  rate : UInt8
  rateMatch : UInt8
  counter : UInt8
  map : UInt32
  deriving DecidableEq, Repr

namespace RefreshController

/-- The coarse bits of a rate. -/
def coarse (rate : UInt8) : UInt8 :=
  rate &&& 0x0E

/-- The fine nibble of a rate, in place. -/
def fine (rate : UInt8) : UInt8 :=
  rate &&& 0xF0

/-- The fine nibble at which a hunt ends, by the coarse bits: every third,
sixth, ninth, twelfth, second, fourth, sixth or eighth count gives a frame. -/
def matchOf (rate : UInt8) : UInt8 :=
  match (coarse rate).toNat with
  | 0x00 => 0x20
  | 0x02 => 0x50
  | 0x04 => 0x80
  | 0x06 => 0xB0
  | 0x08 => 0x10
  | 0x0A => 0x30
  | 0x0C => 0x50
  | _ => 0x70

/-- The value at which the frame counter starts. -/
def counterReset : UInt8 := 0x01

/-- The value at which the frame counter has expired. -/
def counterTerminal : UInt8 := 0x42

/-- The state at power-on. -/
def initial : RefreshController :=
  ⟨0, 0, matchOf 0, counterReset, 0⟩

/-- Write the mode register. -/
def setMode (controller : RefreshController) (data : UInt8) : RefreshController :=
  { controller with mode := data &&& 0x3F }

/-- Whether frames are produced. -/
def isActive (controller : RefreshController) : Bool :=
  controller.mode &&& 0b10 != 0

/-- Write the rate register and say whether the match value was chosen anew. A
change of the coarse bits restarts the hunt; otherwise the fine nibble stays. -/
def writeRate (controller : RefreshController) (data : UInt8) : Bool × RefreshController :=
  if coarse controller.rate != coarse data then
    (true, { controller with rate := data &&& 0x0F, rateMatch := matchOf data })
  else
    (false, { controller with rate := fine controller.rate ||| (data &&& 0x0F) })

/-- Replace byte `index` of the 24 bit tile base, the least significant first.
Beyond the third byte the third is meant. -/
def setMapByte (controller : RefreshController) (index : Nat) (data : UInt8) :
    RefreshController :=
  let shift := UInt32.ofNat (8 * min index 2)
  { controller with
    map := (controller.map &&& ~~~(0xFF <<< shift)) ||| (data.toUInt32 <<< shift) }

/-- Start the count and the hunt over. -/
def restart (controller : RefreshController) : RefreshController :=
  { controller with counter := counterReset, rate := controller.rate &&& 0x0F }

/-- One tick. -/
def tick (controller : RefreshController) : RefreshTick × RefreshController :=
  let counted := { controller with counter := controller.counter + 1 }
  if fine controller.rate = controller.rateMatch then
    if controller.isActive then (.frame, counted.restart)
    else if counted.counter = counterTerminal then (.wrap, counted.restart)
    else (.counting, counted)
  else if counted.counter = counterTerminal then
    (.hunt, { controller with counter := counterReset, rate := controller.rate + 0x10 })
  else (.counting, counted)

/-- The offset of the tile map in working memory, and its number of columns. -/
def tileMap : Nat := 0x360

/-- Tiles in a row of the tile map. -/
def tileColumns : Nat := 12

/-- Render the background. A tile is eight column bytes at the tile base plus
eight times its index. Each byte goes both to the start of working memory and
to the page and column it has in planar display memory, whose hidden columns
are blank. -/
def compose (controller : RefreshController) (ram : Ram) : Checked (Array UInt8 × Ram) :=
  let composeColumn (page column : Nat) (state : Array UInt8 × Ram) :
      Checked (Array UInt8 × Ram) := do
    let (planar, ram) := state
    let tile ← ram.read (tileMap + page * tileColumns + column / 8)
    let data ← ram.read (controller.map.toNat + tile.toNat * 8 + column % 8)
    let ram ← ram.write (page * Lcd.width + column) data
    let planar ← Cells.set planar (page * Lcd.stride + column) data
    .ok (planar, ram)
  let composePage (page : Nat) (state : Array UInt8 × Ram) : Checked (Array UInt8 × Ram) :=
    Checked.rounds (composeColumn page) state Lcd.width
  let blank := Array.replicate (Lcd.pages * Lcd.stride) 0xFF
  Checked.rounds composePage (blank, ram) Lcd.pages

end RefreshController

end Handheld
