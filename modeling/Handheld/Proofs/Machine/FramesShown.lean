/-
# What is on the screen

A host follows its machine from power-on: it lets it step, asks whether there is something
new to draw, and does whatever else hosts do. What it has seen so far is a history of
events, from which everything about the screen can be read off. A frame is due in a step
if the source of the settings says so; the frames counted are those that were due, the
screen shows the latest of them, and a redraw is wanted if one was due since the host last
asked.

Histories have their latest event first, as what an event means depends on the past.
-/

import Handheld.Core.Scripted
import Handheld.Proofs.Lcd.Picture
import Handheld.Proofs.Machine.Answers
import Handheld.Proofs.Machine.Halting
import Handheld.Proofs.Machine.PowerOn

namespace Handheld

open Checked

/-- Whether a frame is due in a step, when the render-done line was at the level `before`
in the previous one. -/
def FrameSource.isDue (source : FrameSource) (before : Bool) (report : StepReport) : Bool :=
  match source with
  | .coreRenderDone => report.sampled.probes.irqRenderDone && !before
  | .refreshController => report.refresh = some .frame

/-- A frame comes upon the screen if it is due, and nothing happens to the screen
otherwise. -/
structure Screen.Follows (due : Bool) (frame : Checked (Array UInt8)) (before after : Screen) :
    Prop where
  shows : due = true → ∃ pixels frames, frame = .ok pixels ∧
    frames.toNat = before.frames.toNat + 1 ∧
    after = { before with pixels, frames, redrawRequested := true }
  rests : due = false → after = before

/-- Composing the background depends on the controller only through the tile base. -/
theorem RefreshController.compose_congr {first second : RefreshController}
    (sameBase : first.map = second.map) (ram : Ram) : first.compose ram = second.compose ram := by
  unfold compose
  rw [sameBase]

namespace Board

/-- The picture of a frame: that of the core's display memory, or of the background if the
core has none, with the core's contrast or else that of the LCD control register. -/
def framePicture (board : Board) (memory : Option (Array UInt8)) (contrast : Option UInt8) :
    Checked (Array UInt8) :=
  let level := contrast.getD board.registers.lcd.contrast
  match memory with
  | some planar => .ok (picture planar level board.screen.orientation)
  | none => (board.registers.refresh.compose board.ram).map fun (planar, _) =>
    picture planar level board.screen.orientation

variable {board changed : Board}

/-- To present is to show the picture of the frame. -/
theorem follows_of_present {memory : Option (Array UInt8)} {contrast : Option UInt8}
    {presentation : Presentation}
    (presented : board.present memory contrast = .ok (presentation, changed))
    (sized : board.screen.pixels.size = Lcd.width * Lcd.height) :
    Screen.Follows true (board.framePicture memory contrast) board.screen changed.screen := by
  have shows {planar : Array UInt8} {level : UInt8} {screen : Screen}
      (shown : board.screen.present planar level = .ok screen) :
      Screen.Follows true (.ok (picture planar level board.screen.orientation)) board.screen
        screen := by
    unfold Screen.present at shown
    rw [paint_eq_picture _ _ _ sized, ok_bind] at shown
    obtain ⟨frames, added, same⟩ := bind_eq_ok.mp shown
    cases same
    exact ⟨fun _ => ⟨_, frames, rfl, of_add64_one added, rfl⟩, nofun⟩
  unfold framePicture
  cases memory with
  | some planar =>
      obtain ⟨-, ⟨⟩, rest⟩ := bind_eq_ok.mp presented
      obtain ⟨screen, shown, same⟩ := bind_eq_ok.mp rest
      cases same
      exact shows shown
  | none =>
      obtain ⟨⟨planar, ram⟩, composed, rest⟩ := bind_eq_ok.mp presented
      obtain ⟨screen, shown, same⟩ := bind_eq_ok.mp rest
      cases same
      dsimp only at composed ⊢
      rw [composed]
      exact shows shown

/-- The boards have the same screen, and the same to show on it. -/
structure SameScene (before after : Board) : Prop where
  ram : after.ram = before.ram
  base : after.registers.refresh.map = before.registers.refresh.map
  lcd : after.registers.lcd = before.registers.lcd
  screen : after.screen = before.screen

theorem SameScene.framePicture_eq (scene : SameScene board changed)
    (memory : Option (Array UInt8)) (contrast : Option UInt8) :
    changed.framePicture memory contrast = board.framePicture memory contrast := by
  unfold framePicture
  rw [scene.ram, scene.lcd, scene.screen, RefreshController.compose_congr scene.base]

theorem SameScene.trans {last : Board} (one : SameScene board changed)
    (two : SameScene changed last) : SameScene board last where
  ram := two.ram.trans one.ram
  base := two.base.trans one.base
  lcd := two.lcd.trans one.lcd
  screen := two.screen.trans one.screen

theorem sameScene_of_latchEdges {probes : Probes} {edges : Edges}
    (latched : board.latchEdges probes = .ok (edges, changed)) : SameScene board changed := by
  obtain ⟨cells, -, rfl⟩ := of_latchEdges latched
  exact ⟨rfl, rfl, rfl, rfl⟩

/-- The line has risen if it is high and was low at the last look. -/
theorem level_of_latchEdges {probes : Probes} {edges : Edges}
    (latched : board.latchEdges probes = .ok (edges, changed)) :
    edges.renderDone = (probes.irqRenderDone && !board.renderDone.level) ∧
      changed.renderDone.level = probes.irqRenderDone := by
  obtain ⟨first, -, rest⟩ := bind_eq_ok.mp latched
  obtain ⟨second, -, same⟩ := bind_eq_ok.mp rest
  cases same
  exact ⟨rfl, rfl⟩

/-- A tick of the controller does not move the tile base. -/
theorem sameScene_of_tickRegisters {settings : Settings} {tick : Option RefreshTick}
    (ticked : board.tickRegisters settings = .ok (tick, changed)) : SameScene board changed := by
  obtain ⟨registers, done, rfl⟩ := of_tickRegisters ticked
  obtain ⟨seconds, -, rfl, -⟩ := RegisterBank.of_tick done
  refine ⟨rfl, ?_, rfl, rfl⟩
  dsimp only
  split
  · exact board.registers.refresh.tick_keeps.2
  · rfl

end Board

namespace Machine

variable {σ : Type} [Core σ]

/-- The picture of a frame that is shown at this moment. -/
def framePicture (machine : Machine σ) : Checked (Array UInt8) :=
  machine.board.framePicture (Core.lcdMemory machine.core) (Core.lcdContrast machine.core)

/-- The machine at the moment at which the coming step samples the core. -/
def sampling (machine : Machine σ) : Checked (Machine σ) := do
  let high ← machine.halfCycle true
  high.halfCycle false

variable {machine after : Machine σ} {report : StepReport}

theorem follows_of_capture {core : σ} {board captured : Board} {due : Bool}
    {shown : Option Presentation} (done : capture core board due = .ok (shown, captured))
    (sized : board.screen.pixels.size = Lcd.width * Lcd.height) :
    captured.renderDone = board.renderDone ∧
      Screen.Follows due (board.framePicture (Core.lcdMemory core) (Core.lcdContrast core))
        board.screen captured.screen := by
  rcases of_capture done with ⟨rfl, rfl⟩ | ⟨rfl, presentation, presented⟩
  · exact ⟨rfl, nofun, fun _ => rfl⟩
  · have follows := Board.follows_of_present presented sized
    obtain ⟨ram, screen, -, -, -, rfl⟩ := Board.of_present presented
    exact ⟨rfl, follows⟩

/-- Housekeeping shows a frame if one is due by the source of the settings, and looks at
the other source in vain. -/
theorem follows_of_housekeep {core : σ} {settings : Settings} {sampled : Frame}
    {board kept : Board} (done : housekeep core settings sampled board = .ok (report, kept))
    (sized : board.screen.pixels.size = Lcd.width * Lcd.height) :
    report.sampled = sampled ∧ kept.renderDone.level = sampled.probes.irqRenderDone ∧
      (report.rendered = none ∨ report.refreshed = none) ∧
      Screen.Follows (settings.frameSource.isDue board.renderDone.level report)
        (board.framePicture (Core.lcdMemory core) (Core.lcdContrast core)) board.screen
        kept.screen := by
  obtain ⟨edges, latched, rendered, shown, refresh, ticked, refreshed, drawn, complaints, audit,
    latching, rendering, ticking, drawing, -, rfl, rfl⟩ := of_housekeep done
  have latchedScene := Board.sameScene_of_latchEdges latching
  have tickedScene := Board.sameScene_of_tickRegisters ticking
  have tickedLevel : ticked.renderDone = shown.renderDone := by
    obtain ⟨registers, -, rfl⟩ := Board.of_tickRegisters ticking
    rfl
  obtain ⟨rose, level⟩ := Board.level_of_latchEdges latching
  have latchedSized : latched.screen.pixels.size = Lcd.width * Lcd.height := by
    rw [latchedScene.screen]
    exact sized
  cases source : settings.frameSource with
  | coreRenderDone =>
      have idle : (decide (refresh = some .frame) &&
          decide (settings.frameSource = .refreshController)) = false := by
        rw [source]
        exact Bool.and_false _
      have due : (edges.renderDone && decide (settings.frameSource = .coreRenderDone)) =
          (sampled.probes.irqRenderDone && !board.renderDone.level) := by
        rw [source, rose]
        exact Bool.and_true _
      rw [idle] at drawing
      cases drawing
      rw [due] at rendering
      obtain ⟨shownLevel, follows⟩ := follows_of_capture rendering latchedSized
      rw [latchedScene.framePicture_eq, latchedScene.screen, ← tickedScene.screen] at follows
      refine ⟨rfl, ?_, .inr rfl, follows⟩
      show ticked.renderDone.level = _
      rw [tickedLevel, shownLevel, level]
  | refreshController =>
      have idle : (edges.renderDone && decide (settings.frameSource = .coreRenderDone)) = false := by
        rw [source]
        exact Bool.and_false _
      have due : (decide (refresh = some .frame) &&
          decide (settings.frameSource = .refreshController)) = decide (refresh = some .frame) := by
        rw [source]
        exact Bool.and_true _
      rw [idle] at rendering
      cases rendering
      rw [due] at drawing
      have scene := latchedScene.trans tickedScene
      have tickedSized : ticked.screen.pixels.size = Lcd.width * Lcd.height := by
        rw [scene.screen]
        exact sized
      obtain ⟨drawnLevel, follows⟩ := follows_of_capture drawing tickedSized
      rw [scene.framePicture_eq, scene.screen] at follows
      refine ⟨rfl, ?_, .inl rfl, follows⟩
      show drawn.renderDone.level = _
      rw [drawnLevel, tickedLevel, level]

/-- What a step without an overflow does to the screen. -/
structure ScreenStep (machine moment : Machine σ) (report : StepReport) (after : Machine σ) :
    Prop where
  settings : after.settings = machine.settings
  level : after.board.renderDone.level = report.sampled.probes.irqRenderDone
  oneSource : report.rendered = none ∨ report.refreshed = none
  follows : Screen.Follows
    (machine.settings.frameSource.isDue machine.board.renderDone.level report)
    moment.framePicture machine.board.screen after.board.screen

theorem screenStep_of_step
    (stepped : machine.step = .ok { report := some report, overflow := none, machine := after })
    (sized : machine.board.screen.pixels.size = Lcd.width * Lcd.height) :
    ∃ moment, machine.sampling = .ok moment ∧ report.sampled = moment.shownFrame ∧
      ScreenStep machine moment report after := by
  have settings := (flags_of_step stepped).1
  obtain ⟨awake, -⟩ := awake_of_step stepped rfl
  obtain ⟨high, moment, kept, board, rising, falling, housekept, rest⟩ := of_step awake stepped
  have sampled : machine.sampling = .ok moment := bind_eq_ok.mpr ⟨high, rising, falling⟩
  obtain ⟨core, oscillator, clock, -, rfl⟩ := of_cycle rising falling
  obtain ⟨shown, level, oneSource, follows⟩ := follows_of_housekeep housekept sized
  obtain ⟨stackPointer, -, impossible⟩ | ⟨-, final, last, finished, same⟩ := rest
  · cases impossible
  cases same
  obtain ⟨boundary, observed, transfer, middle, -, moved, rfl, rfl⟩ := of_finishStep finished
  have sameScreen : middle.board.screen = board.screen ∧
      middle.board.renderDone = board.renderDone := by
    obtain ⟨_, _, _, rfl, rfl | ⟨-, -, _, fetched⟩ | ⟨-, -, _, stored⟩⟩ := of_transfer moved
    · exact ⟨rfl, rfl⟩
    · obtain ⟨bios, cartridge, incidents, -, -, rfl⟩ := Board.of_fetch fetched
      exact ⟨rfl, rfl⟩
    · obtain ⟨ram, registers, incidents, -, -, rfl⟩ := Board.of_store stored
      exact ⟨rfl, rfl⟩
  refine ⟨_, sampled, shown, settings, ?_, oneSource, ?_⟩
  · show middle.board.renderDone.level = kept.sampled.probes.irqRenderDone
    rw [sameScreen.2, level, shown]
  · show Screen.Follows _ _ _ middle.board.screen
    rw [sameScreen.1]
    exact follows

/-! ## Histories -/

/-- What a host notes of its machine. -/
inductive Event (σ : Type)
  /-- A step, with the machine at the moment at which the core was sampled. -/
  | stepped (moment : Machine σ) (report : StepReport)
  /-- The host has asked whether there is something new to draw. -/
  | asked

namespace Event

/-- The level of the render-done line in the last step. It was low before the first. -/
def lastLevel : List (Event σ) → Bool
  | [] => false
  | .stepped _ report :: _ => report.sampled.probes.irqRenderDone
  | .asked :: past => lastLevel past

/-- The moments at which frames were due, the latest first. -/
def dueFrames (source : FrameSource) : List (Event σ) → List (Machine σ)
  | [] => []
  | .stepped moment report :: past =>
    if source.isDue (lastLevel past) report then moment :: dueFrames source past
    else dueFrames source past
  | .asked :: past => dueFrames source past

/-- Whether a frame has been due since the host last asked. -/
def dueSinceAsked (source : FrameSource) : List (Event σ) → Bool
  | [] => false
  | .stepped _ report :: past =>
    source.isDue (lastLevel past) report || dueSinceAsked source past
  | .asked :: _ => false

/-- No step shows a frame for the sake of the line and of the controller both. -/
def HasOneSource : Event σ → Prop
  | .stepped _ report => report.rendered = none ∨ report.refreshed = none
  | .asked => True

/-- The latest of the pictures, or white if there is none. -/
def latestPicture (orientation : Orientation) : List (Machine σ) → Checked (Array UInt8)
  | [] => .ok (Screen.blank orientation).pixels
  | moment :: _ => moment.framePicture

end Event

/-- The action neither steps nor resets a machine, nor takes its redraw request. -/
def Action.IsQuiet : Action σ → Prop
  | .step | .run _ | .runFrame | .reset | .takeRedraw => False
  | _ => True

/-- A host has followed its machine since it was `origin`, and noted these events, the
latest first. -/
inductive Session (origin : Machine σ) : List (Event σ) → Machine σ → Prop
  | start : Session origin [] origin
  | step {events : List (Event σ)} {now moment next : Machine σ} {report : StepReport} :
      Session origin events now → now.sampling = .ok moment →
        now.step = .ok { report := some report, overflow := none, machine := next } →
          Session origin (.stepped moment report :: events) next
  | ask {events : List (Event σ)} {now : Machine σ} :
      Session origin events now → Session origin (.asked :: events) now.takeRedraw.2
  | act {events : List (Event σ)} {now next : Machine σ} {action : Action σ} :
      Session origin events now → action.IsQuiet → now.perform action = .ok next →
        Session origin events next

theorem screen_of_quiet {action : Action σ} (quiet : action.IsQuiet)
    (performed : machine.perform action = .ok after) :
    after.settings = machine.settings ∧ after.board.screen = machine.board.screen ∧
      after.board.renderDone = machine.board.renderDone := by
  refine ⟨settings_of_perform performed, ?_⟩
  cases action with
  | loadBios image =>
      cases performed
      cases loaded : machine.loadBios image with
      | error refusal => exact ⟨rfl, rfl⟩
      | ok loadedMachine =>
          obtain ⟨bios, -, same⟩ := bind_eq_ok.mp loaded
          cases same
          exact ⟨rfl, rfl⟩
  | loadCartridge image =>
      cases performed
      cases loaded : machine.loadCartridge image with
      | error refusal => exact ⟨rfl, rfl⟩
      | ok loadedMachine =>
          obtain ⟨cartridge, -, same⟩ := bind_eq_ok.mp loaded
          cases same
          exact ⟨rfl, rfl⟩
  | setTable | setRunning | exchangeCore =>
      cases performed
      exact ⟨rfl, rfl⟩
  | setKeys keys =>
      cases performed
      rw [board_setKeys]
      exact ⟨rfl, rfl⟩
  | pokeRegister offset data =>
      obtain ⟨⟨write, _⟩, poked, rfl⟩ := of_map_eq_ok performed
      obtain ⟨⟨_, board⟩, written, same⟩ := bind_eq_ok.mp poked
      cases same
      obtain ⟨registers, incidents, -, -, rfl⟩ := Board.of_writeRegister written
      exact ⟨rfl, rfl⟩
  | raise offset mask =>
      obtain ⟨⟨raised, _⟩, done, rfl⟩ := of_map_eq_ok performed
      obtain ⟨⟨_, registers⟩, -, same⟩ := bind_eq_ok.mp done
      cases same
      exact ⟨rfl, rfl⟩
  | peekRegister | view | coverage =>
      obtain ⟨_, -, rfl⟩ := of_map_eq_ok performed
      exact ⟨rfl, rfl⟩
  | step | run | runFrame | reset | takeRedraw => exact quiet.elim

/-- The screen is as the events say. -/
structure Displays (settings : Settings) (events : List (Event σ)) (now : Machine σ) : Prop where
  unchanged : now.settings = settings
  oneSource : ∀ event ∈ events, event.HasOneSource
  sized : now.board.screen.pixels.size = Lcd.width * Lcd.height
  level : now.board.renderDone.level = Event.lastLevel events
  frames : now.board.screen.frames.toNat =
    (Event.dueFrames settings.frameSource events).length
  pixels : Event.latestPicture settings.orientation (Event.dueFrames settings.frameSource events) =
    .ok now.board.screen.pixels
  redraw : now.board.screen.redrawRequested = Event.dueSinceAsked settings.frameSource events

/-- At power-on the screen is white, and the render-done line was never seen high. -/
theorem PoweredOn.blank {table : CycleTable} (poweredOn : PoweredOn table machine) :
    machine.board.screen = .blank machine.settings.orientation ∧
      machine.board.renderDone = {} := by
  induction poweredOn with
  | start core settings =>
      rw [(settings_start core settings).1, Machine.start, board_holdReset]
      exact ⟨rfl, rfl⟩
  | reset machine =>
      rw [Machine.reset, board_holdReset, (flags_holdReset _).1]
      exact ⟨rfl, rfl⟩
  | setTable table _ ih => exact ih
  | loadBios _ loaded ih =>
      obtain ⟨bios, -, same⟩ := bind_eq_ok.mp loaded
      cases same
      exact ih
  | loadCartridge _ loaded ih =>
      obtain ⟨cartridge, -, same⟩ := bind_eq_ok.mp loaded
      cases same
      exact ih
  | setKeys keys _ ih =>
      rw [board_setKeys, Machine.setKeys, (flags_forwardKeys _).1]
      exact ih

namespace Displays

variable {settings : Settings} {events : List (Event σ)} {now moment next : Machine σ}

theorem poweredOn {table : CycleTable} (poweredOn : PoweredOn table machine) :
    Displays machine.settings [] machine where
  unchanged := rfl
  oneSource := List.forall_mem_nil _
  sized := by
    rw [poweredOn.blank.1]
    exact Array.size_replicate
  level := by
    rw [poweredOn.blank.2]
    rfl
  frames := by
    rw [poweredOn.blank.1]
    rfl
  pixels := by
    rw [poweredOn.blank.1]
    rfl
  redraw := by
    rw [poweredOn.blank.1]
    rfl

variable (displays : Displays settings events now)
include displays

theorem step (sampled : now.sampling = .ok moment)
    (stepped : now.step = .ok { report := some report, overflow := none, machine := next }) :
    Displays settings (.stepped moment report :: events) next := by
  obtain ⟨_, again, -, screenStep⟩ := screenStep_of_step stepped displays.sized
  cases Except.ok.inj (sampled.symm.trans again)
  have sized : next.board.screen.pixels.size = Lcd.width * Lcd.height := by
    rw [(Board.sameFixtures_of_moves (moves_of_step stepped)).pixels]
    exact displays.sized
  have follows := screenStep.follows
  rw [displays.unchanged, displays.level] at follows
  have unchanged := screenStep.settings.trans displays.unchanged
  have oneSource : ∀ event ∈ .stepped moment report :: events, event.HasOneSource :=
    List.forall_mem_cons.mpr ⟨screenStep.oneSource, displays.oneSource⟩
  have frames := displays.frames
  have redraw := displays.redraw
  cases due : settings.frameSource.isDue (Event.lastLevel events) report with
  | true =>
      obtain ⟨pixels, count, frame, counted, screen⟩ := follows.shows due
      refine ⟨unchanged, oneSource, sized, screenStep.level, ?_, ?_, ?_⟩
      · rw [Event.dueFrames, if_pos due, List.length_cons, ← frames, screen, counted]
      · rw [Event.dueFrames, if_pos due, Event.latestPicture, frame, screen]
      · rw [Event.dueSinceAsked, due, screen, Bool.true_or]
  | false =>
      have screen := follows.rests due
      have notDue : ¬ settings.frameSource.isDue (Event.lastLevel events) report = true := by
        rw [due]
        exact Bool.false_ne_true
      refine ⟨unchanged, oneSource, sized, screenStep.level, ?_, ?_, ?_⟩
      · rw [Event.dueFrames, if_neg notDue, screen, frames]
      · rw [Event.dueFrames, if_neg notDue, screen, displays.pixels]
      · rw [Event.dueSinceAsked, due, screen, redraw, Bool.false_or]

theorem ask : Displays settings (.asked :: events) now.takeRedraw.2 :=
  { displays with
    oneSource := List.forall_mem_cons.mpr ⟨trivial, displays.oneSource⟩
    redraw := rfl }

theorem act {action : Action σ} (quiet : action.IsQuiet) (performed : now.perform action = .ok next) :
    Displays settings events next := by
  obtain ⟨sameSettings, screen, level⟩ := screen_of_quiet quiet performed
  exact
    { unchanged := sameSettings.trans displays.unchanged
      oneSource := displays.oneSource
      sized := by
        rw [screen]
        exact displays.sized
      level := by
        rw [level]
        exact displays.level
      frames := by
        rw [screen]
        exact displays.frames
      pixels := by
        rw [screen]
        exact displays.pixels
      redraw := by
        rw [screen]
        exact displays.redraw }

end Displays

variable {table : CycleTable} {origin now : Machine σ} {events : List (Event σ)}

theorem Session.displays (session : Session origin events now) (poweredOn : PoweredOn table origin) :
    Displays origin.settings events now := by
  induction session with
  | start => exact .poweredOn poweredOn
  | step _ sampled stepped ih => exact ih.step sampled stepped
  | ask _ ih => exact ih.ask
  | act _ quiet performed ih => exact ih.act quiet performed

/-- Frames shown match their source. From power-on, whatever the host does besides letting
the machine step, the frames counted are those that were due by the source of the
settings, and no step shows one by either source. The screen has the picture of the latest
frame as it was at its moment, white before the first; and asked whether there is something
new to draw, the machine says whether a frame was due since the host last asked. -/
theorem frames_match_source (poweredOn : PoweredOn table origin)
    (session : Session origin events now) :
    let source := origin.settings.frameSource
    let shown := Event.dueFrames source events
    now.board.screen.frames.toNat = shown.length ∧
      (∀ event ∈ events, event.HasOneSource) ∧
      Event.latestPicture origin.settings.orientation shown = .ok now.board.screen.pixels ∧
      now.takeRedraw.1 = Event.dueSinceAsked source events := by
  have displays := session.displays poweredOn
  exact ⟨displays.frames, displays.oneSource, displays.pixels, displays.redraw⟩

/-- A session can go on with a step while the machine is young, unless the coming frame
overflows the stack. -/
theorem Session.exists_step {bound age : Nat} {frame : Frame} (session : Session origin events now)
    (awake : now.haltedAt = none) (aged : now.board.Aged bound age) (room : bound + 99 < 2 ^ 62)
    (young : age + 1 < 2 ^ 32) (coming : now.comingFrame = .ok frame)
    (sound : frame.probes.stackPointer ≤ now.board.audit.stackLimit) :
    ∃ moment report next, now.sampling = .ok moment ∧
      now.step = .ok { report := some report, overflow := none, machine := next } ∧
      Session origin (.stepped moment report :: events) next ∧ report.sampled = frame ∧
      next.board.Aged (bound + 99) (age + 1) := by
  obtain ⟨⟨report, overflow, next⟩, stepped, nextAged⟩ := step_aged aged room young
  have sized : now.board.screen.pixels.size = Lcd.width * Lcd.height := aged.bounded.intact.pixels
  cases overflow with
  | some overflow =>
      obtain ⟨⟨shown, again, -, stackPointer, beyond⟩, -⟩ :=
        (overflow_of_step awake stepped overflow).mp rfl
      cases Except.ok.inj (coming.symm.trans again)
      rw [← stackPointer] at beyond
      exact absurd beyond (UInt16.not_lt.mpr sound)
  | none =>
      obtain ⟨-, report, rfl⟩ := awake_of_step stepped rfl
      obtain ⟨moment, sampled, shown, -⟩ := screenStep_of_step stepped sized
      refine ⟨moment, report, next, sampled, stepped, session.step sampled stepped, ?_, nextAged⟩
      have same : now.comingFrame = .ok moment.shownFrame := by
        obtain ⟨high, rising, falling⟩ := bind_eq_ok.mp sampled
        exact comingFrame_eq rising falling
      rw [shown]
      exact Except.ok.inj (same.symm.trans coming)

/-- A core with display memory that renders one frame as soon as reset is released. -/
def beacon : Machine ScriptedCore :=
  start (ScriptedCore.withLcd { script := ScriptedCore.renderDone } #[0x0F, 0xAA] 20)
    { frameSource := .coreRenderDone, resetHalfCycles := 0 }

/-- A beacon takes two steps. In the second its frame is due, which is that of its display
memory. -/
theorem steps_beacon :
    ∃ before first next moment second now,
      beacon.step = .ok { report := some first, overflow := none, machine := next } ∧
      next.step = .ok { report := some second, overflow := none, machine := now } ∧
      Session beacon [.stepped moment second, .stepped before first] now ∧
      Event.dueFrames .coreRenderDone [.stepped moment second, .stepped before first] = [moment] ∧
      Event.dueSinceAsked .coreRenderDone [.stepped moment second, .stepped before first] = true ∧
      moment.framePicture = .ok (picture #[0x0F, 0xAA] 20 .topDown) := by
  have fresh : beacon.board.Aged 0 0 := aged_start _ _
  have idle : beacon.comingFrame = .ok {} := by decide +kernel
  have rendering : (beacon.step >>= fun result => result.machine.comingFrame) =
      .ok { probes := { irqRenderDone := true } } := by decide +kernel
  have scene : (beacon.step >>= fun result => result.machine.sampling).map
      (fun moment => (moment.core.lcd, moment.core.contrast, moment.board.screen.orientation)) =
      .ok (some #[0x0F, 0xAA], some 20, .topDown) := by decide +kernel
  obtain ⟨before, first, next, -, stepped, session, firstShown, aged⟩ :=
    Session.start.exists_step rfl fresh (by decide) (by decide) idle UInt16.zero_le
  rw [stepped, ok_bind] at rendering scene
  obtain ⟨moment, second, now, sampled, steppedAgain, session, secondShown, -⟩ :=
    session.exists_step (haltedAt_of_step stepped rfl) aged (by decide) (by decide) rendering
      UInt16.zero_le
  refine ⟨before, first, next, moment, second, now, stepped, steppedAgain, session, ?_, ?_, ?_⟩
  · simp [Event.dueFrames, Event.lastLevel, FrameSource.isDue, firstShown, secondShown]
  · simp [Event.dueSinceAsked, Event.lastLevel, FrameSource.isDue, firstShown, secondShown]
  · obtain ⟨_, again, same⟩ := of_map_eq_ok scene
    cases Except.ok.inj (sampled.symm.trans again)
    simp only [Prod.mk.injEq] at same
    obtain ⟨memory, contrast, orientation⟩ := same
    show moment.board.framePicture moment.core.lcd moment.core.contrast = _
    rw [memory, contrast, ← orientation]
    rfl

/-- The second step of a beacon shows its frame, and the host is told so. -/
theorem frames_match_source_beacon :
    PoweredOn .blank beacon ∧ ∃ events now, Session beacon events now ∧
      (Event.dueFrames .coreRenderDone events).length = 1 ∧
      now.board.screen.frames.toNat = 1 ∧ (∀ event ∈ events, event.HasOneSource) ∧
      Event.latestPicture .topDown (Event.dueFrames .coreRenderDone events) =
        .ok now.board.screen.pixels ∧
      now.takeRedraw.1 = true := by
  have poweredOn : PoweredOn .blank beacon := .start _ _
  obtain ⟨before, first, _, moment, second, now, -, -, session, shown, wanted, -⟩ := steps_beacon
  obtain ⟨frames, oneSource, pixels, redraw⟩ := frames_match_source poweredOn session
  have once := congrArg List.length shown
  exact ⟨poweredOn, _, now, session, once, frames.trans once, oneSource, pixels,
    redraw.trans wanted⟩

end Machine

end Handheld
