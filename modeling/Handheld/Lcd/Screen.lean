/-
# The screen

The panel has 64 rows of 96 pixels. Its memory is planar: eight pages of 132
column bytes, of which 96 are visible, each byte holding eight rows with bit 0
on top. A set bit is a blank pixel. Painting turns planar memory into one
intensity byte per pixel.
-/

import Handheld.Enumeration
import Handheld.Fault
import Handheld.Lcd.Controller

namespace Handheld

namespace Lcd

/-- Visible columns. -/
def width : Nat := 96

/-- Rows. -/
def height : Nat := 64

/-- Pages of eight rows. -/
def pages : Nat := 8

/-- Column bytes of a page, visible or not. -/
def stride : Nat := 132

end Lcd

/-- Which row of the panel comes first on the screen. -/
inductive Orientation
  | topDown
  /-- For displays with their origin at the bottom left. -/
  | bottomUp
  deriving DecidableEq, Repr, Inhabited

instance : Enumeration Orientation where
  members := [.topDown, .bottomUp]
  name
    | .topDown => "TopDown"
    | .bottomUp => "BottomUp"

/-- The screen row that shows a panel row. -/
def Orientation.row (orientation : Orientation) (y : Nat) : Checked Nat :=
  match orientation with
  | .topDown => .ok y
  | .bottomUp => if y < Lcd.height then .ok (Lcd.height - 1 - y) else .error .overflow

/-- The intensity of a dark pixel: black at contrast 32 and above, lighter below. -/
def grayLevel (contrast : UInt8) : UInt8 :=
  let limit := Lcd.contrastMax.toNat
  UInt8.ofNat (255 * (limit - min contrast.toNat limit) / limit)

/-- The intensity of one row of a column byte. -/
def shade (dark data : UInt8) (bit : Nat) : UInt8 :=
  if (data >>> UInt8.ofNat bit) &&& 1 != 0 then 255 else dark

/-- Paint planar memory onto a pixel buffer, page by page, column by column and
from the top bit down. Bytes that a short planar memory lacks are blank. The
buffer needs room for every pixel; cells beyond them stay as they are. -/
def paint (planar : Array UInt8) (contrast : UInt8) (orientation : Orientation)
    (pixels : Array UInt8) : Checked (Array UInt8) :=
  let dark := grayLevel contrast
  let paintColumn (page x : Nat) (pixels : Array UInt8) : Checked (Array UInt8) :=
    let data := planar.getD (page * Lcd.stride + x) 0xFF
    let paintBit (bit : Nat) (pixels : Array UInt8) : Checked (Array UInt8) := do
      let y ← orientation.row (page * 8 + bit)
      Cells.set pixels (y * Lcd.width + x) (shade dark data bit)
    Checked.rounds paintBit pixels 8
  let paintPage (page : Nat) (pixels : Array UInt8) : Checked (Array UInt8) :=
    Checked.rounds (paintColumn page) pixels Lcd.width
  Checked.rounds paintPage pixels Lcd.pages

/-- The screen: its pixels, the number of frames shown, and whether the last
one has yet to be drawn by the host. -/
structure Screen where
  pixels : Array UInt8
  orientation : Orientation
  frames : UInt64
  redrawRequested : Bool
  deriving DecidableEq

namespace Screen

/-- A white screen. -/
def blank (orientation : Orientation) : Screen :=
  ⟨.replicate (Lcd.width * Lcd.height) 255, orientation, 0, false⟩

/-- Show a frame. -/
def present (screen : Screen) (planar : Array UInt8) (contrast : UInt8) : Checked Screen := do
  let pixels ← paint planar contrast screen.orientation screen.pixels
  let frames ← add64 screen.frames 1
  .ok { screen with pixels, frames, redrawRequested := true }

/-- Ask whether there is something new to draw; asking takes the request. -/
def takeRedraw (screen : Screen) : Bool × Screen :=
  (screen.redrawRequested, { screen with redrawRequested := false })

end Screen

end Handheld
