/-
# The core

The core is a black box behind its lines. The board drives its clock, reset,
data and key lines, asks it to settle, and then samples its pins and probes. A
core may expose its display memory and contrast; one without them leaves the
composition of frames to the board.
-/

import Handheld.Core.Signals
import Handheld.Notice

namespace Handheld

/-- A type of core states with the lines of a core. -/
class Core (σ : Type) where
  setClock : Bool → σ → σ
  setReset : Bool → σ → σ
  setRealTimeClock : Bool → σ → σ
  setDataIn : UInt8 → σ → σ
  /-- Active-high key lines, for cores that model the key pad themselves. -/
  setKeys : UInt8 → σ → σ := fun _ core => core
  /-- Let the combinational logic settle after an input has changed. -/
  settle : σ → σ
  pins : σ → Pins
  probes : σ → Probes
  /-- Planar display memory, pages of `Lcd.stride` column bytes. -/
  lcdMemory : σ → Option (Array UInt8) := fun _ => none
  lcdContrast : σ → Option UInt8 := fun _ => none
  /-- What the core says when it is served a byte. -/
  dataNotices : UInt8 → σ → List Notice := fun _ _ => []

end Handheld
