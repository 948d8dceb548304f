/-
# Recorders

A recorder stands between a board and a core and writes down every line that
the board drives. It may leave out the optional lines, as a core would that has
neither keys nor a display.
-/

import Handheld.Core.Interface

namespace Handheld

/-- One action of the board on the core's lines. -/
inductive Signal
  | clock (level : Bool)
  | reset (level : Bool)
  | realTimeClock (level : Bool)
  | dataIn (data : UInt8)
  | keys (pressed : UInt8)
  | settle
  deriving DecidableEq, Repr

/-- A signal as a short text. -/
def Signal.text : Signal → String
  | .clock level => if level then "clk1" else "clk0"
  | .reset level => if level then "reset1" else "reset0"
  | .realTimeClock level => if level then "rt1" else "rt0"
  | .dataIn data => "din:" ++ Digits.hex 2 data.toNat
  | .keys pressed => "keys:" ++ Digits.hex 2 pressed.toNat
  | .settle => "eval"

/-- A core behind a recorder. -/
structure Recorder (σ : Type) where
  core : σ
  recording : Bool := true
  /-- Whether the key and display lines are connected. -/
  wired : Bool := true
  signals : Array Signal := #[]

namespace Recorder

variable {σ : Type}

/-- Write a signal down and pass it on. -/
def pass (signal : Signal) (drive : σ → σ) (recorder : Recorder σ) : Recorder σ :=
  { recorder with
    core := drive recorder.core
    signals :=
      if recorder.recording then recorder.signals.push signal else recorder.signals }

instance [Core σ] : Core (Recorder σ) where
  setClock level := pass (.clock level) (Core.setClock level)
  setReset level := pass (.reset level) (Core.setReset level)
  setRealTimeClock level := pass (.realTimeClock level) (Core.setRealTimeClock level)
  setDataIn data := pass (.dataIn data) (Core.setDataIn data)
  setKeys keys recorder :=
    if recorder.wired then pass (.keys keys) (Core.setKeys keys) recorder else recorder
  settle := pass .settle Core.settle
  pins recorder := Core.pins recorder.core
  probes recorder := Core.probes recorder.core
  lcdMemory recorder := if recorder.wired then Core.lcdMemory recorder.core else none
  lcdContrast recorder := if recorder.wired then Core.lcdContrast recorder.core else none
  dataNotices data recorder := Core.dataNotices data recorder.core

end Recorder

end Handheld
