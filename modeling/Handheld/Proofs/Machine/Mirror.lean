/-
# Orientation only mirrors

Two machines are alike but for the orientation of their screens. Whatever their hosts do
with them, they give the same answers, and differ in their screens only: one shows the
rows of the other in reverse.

No bound is put on what the hosts do. Should one of the machines run into a fault at
last, then so does the other, at the same place.
-/

import Handheld.Core.Scripted
import Handheld.Proofs.Lcd.Picture
import Handheld.Proofs.Machine.FramesShown
import Handheld.Proofs.Machine.PairedAnswers

namespace Handheld

open Checked

/-- The screens have shown the same frames, one of them upside down. -/
structure Screen.Mirrored (first second : Screen) : Prop where
  orientation : first.orientation = .topDown
  otherOrientation : second.orientation = .bottomUp
  sized : first.pixels.size = Lcd.width * Lcd.height
  otherSized : second.pixels.size = Lcd.width * Lcd.height
  frames : first.frames = second.frames
  redrawRequested : first.redrawRequested = second.redrawRequested
  rows : ∀ y < Lcd.height, first.row y = second.row (Lcd.height - 1 - y)

namespace Screen

/-- A white screen is its own mirror image. -/
theorem mirrored_blank : (blank .topDown).Mirrored (blank .bottomUp) where
  orientation := rfl
  otherOrientation := rfl
  sized := Array.size_replicate
  otherSized := Array.size_replicate
  frames := rfl
  redrawRequested := rfl
  rows y below := by
    have below : y < 64 := below
    simp only [row, blank, Lcd.width, Lcd.height, Array.extract_replicate]
    congr 1
    omega

variable {first second : Screen} (mirrored : first.Mirrored second)
include mirrored

/-- A frame is drawn over the whole of both screens. -/
theorem Mirrored.present (planar : Array UInt8) (contrast : UInt8) :
    Alike Mirrored (first.present planar contrast) (second.present planar contrast) := by
  unfold Screen.present
  rw [mirrored.orientation, mirrored.otherOrientation, paint_eq_picture _ _ _ mirrored.sized,
    paint_eq_picture _ _ _ mirrored.otherSized, ok_bind, ok_bind, mirrored.frames]
  apply Alike.bind_same
  intro frames
  apply Alike.ok
  refine
    { orientation := rfl
      otherOrientation := rfl
      sized := size_picture planar contrast .topDown
      otherSized := size_picture planar contrast .bottomUp
      frames := rfl
      redrawRequested := rfl
      rows := ?_ }
  intro y below
  have reverse : Lcd.height - 1 - y < Lcd.height := by
    simp only [Lcd.height]
    omega
  rw [row, row, extract_picture _ _ _ below, extract_picture _ _ _ reverse,
    Orientation.turn_reverse below]

theorem Mirrored.takeRedraw : first.takeRedraw.2.Mirrored second.takeRedraw.2 :=
  { mirrored with redrawRequested := rfl }

end Screen

namespace Board

/-- The second board is the first one with a mirrored screen. -/
def Mirrored (first second : Board) : Prop :=
  ∃ screen, first.screen.Mirrored screen ∧ second = { first with screen }

variable {board : Board} {screen : Screen} (mirrored : board.screen.Mirrored screen)
include mirrored

theorem latchEdges_mirrored (probes : Probes) :
    Alike (fun x y => x.1 = y.1 ∧ x.2.Mirrored y.2) (board.latchEdges probes)
      ({ board with screen }.latchEdges probes) := by
  unfold latchEdges
  apply Alike.bind_same
  intro renderLatched
  apply Alike.bind_same
  intro copyLatched
  exact .ok ⟨rfl, screen, mirrored, rfl⟩

/-- A frame is composed from the same memory, if the core has none to show. -/
theorem present_mirrored (memory : Option (Array UInt8)) (contrast : Option UInt8) :
    Alike (fun x y => x.2.Mirrored y.2) (board.present memory contrast)
      ({ board with screen }.present memory contrast) := by
  unfold Board.present
  cases memory with
  | some planar =>
      dsimp only
      rw [ok_bind, ok_bind]
      apply (mirrored.present planar _).bind
      intro shown otherShown shownMirrored
      exact .ok ⟨otherShown, shownMirrored, rfl⟩
  | none =>
      apply Alike.bind_same
      rintro ⟨planar, ram⟩
      apply (mirrored.present planar _).bind
      intro shown otherShown shownMirrored
      exact .ok ⟨otherShown, shownMirrored, rfl⟩

theorem fetch_mirrored (bus : Transaction) (codeBank : UInt8) :
    Alike (fun x y => x.1 = y.1 ∧ x.2.Mirrored y.2) (board.fetch bus codeBank)
      ({ board with screen }.fetch bus codeBank) := by
  have sameMap : { board with screen }.locate = board.locate := rfl
  unfold Board.fetch
  rw [sameMap]
  obtain ⟨region, offset⟩ := board.locate bus.address
  dsimp only
  cases region with
  | bios | ram =>
      apply Alike.bind_same
      intro read
      exact .ok ⟨rfl, screen, mirrored, rfl⟩
  | registers | cartridge =>
      apply Alike.bind_same
      intro incidents
      apply Alike.bind_same
      intro read
      exact .ok ⟨rfl, screen, mirrored, rfl⟩

theorem writeRegister_mirrored (offset data : UInt8) :
    Alike (fun x y => x.1 = y.1 ∧ x.2.Mirrored y.2) (board.writeRegister offset data)
      ({ board with screen }.writeRegister offset data) := by
  unfold writeRegister
  apply Alike.bind_same
  intro written
  apply Alike.bind_same
  intro incidents
  exact .ok ⟨rfl, screen, mirrored, rfl⟩

theorem store_mirrored (bus : Transaction) :
    Alike (fun x y => x.2.Mirrored y.2) (board.store bus) ({ board with screen }.store bus) := by
  have sameMap : { board with screen }.locate = board.locate := rfl
  unfold Board.store
  rw [sameMap]
  obtain ⟨region, offset⟩ := board.locate bus.address
  dsimp only
  cases region with
  | bios | ram | cartridge =>
      apply Alike.bind_same
      intro written
      exact .ok ⟨screen, mirrored, rfl⟩
  | registers =>
      apply (writeRegister_mirrored mirrored _ _).bind
      rintro ⟨write, changed⟩ ⟨otherWrite, otherChanged⟩ ⟨-, changedMirrored⟩
      exact .ok changedMirrored

omit mirrored

/-- A step treats mirrored boards alike. -/
theorem simulation_mirrored (settings : Settings) :
    Simulation .alike Eq (fun _ => Mirrored) { settings with orientation := .topDown }
      { settings with orientation := .bottomUp } where
  frameSource := rfl
  resetHalfCycles := rfl
  ticks := by
    rintro - board _ ⟨screen, -, rfl⟩
    rfl
  halfCycle := by
    rintro - board _ ⟨screen, mirrored, rfl⟩
    unfold Board.halfCycle
    apply Alike.bind_same
    intro due
    apply Alike.bind_same
    intro ticks
    exact .ok ⟨rfl, screen, mirrored, rfl⟩
  latchEdges := by
    rintro board _ frame _ ⟨screen, mirrored, rfl⟩ rfl
    exact latchEdges_mirrored mirrored frame.probes
  present := by
    rintro board _ ⟨screen, mirrored, rfl⟩ memory contrast
    exact present_mirrored mirrored memory contrast
  tickRegisters := by
    rintro board _ ⟨screen, mirrored, rfl⟩
    unfold tickRegisters
    apply Alike.bind_same
    intro ticked
    exact .ok ⟨rfl, screen, mirrored, rfl⟩
  collectComplaints := by
    rintro board _ frame _ ⟨screen, mirrored, rfl⟩ rfl
    apply (Alike.refl _).imp
    rintro collected _ rfl
    exact ⟨rfl, screen, mirrored, rfl⟩
  observe := by
    rintro board _ frame _ ⟨screen, mirrored, rfl⟩ rfl timestamp
    apply (Alike.refl _).imp
    rintro observed _ rfl
    exact ⟨screen, mirrored, rfl⟩
  enterInterrupt := by
    rintro board _ frame _ ⟨screen, mirrored, rfl⟩ rfl timestamp
    exact ⟨screen, mirrored, rfl⟩
  countCycle := by
    rintro board _ frame _ ⟨screen, mirrored, rfl⟩ rfl
    exact ⟨screen, mirrored, rfl⟩
  rest := id

/-- Hosts find mirrored boards alike, until they look at the screens. -/
theorem tended_mirrored (settings : Settings) :
    Tended .alike Mirrored { settings with orientation := .topDown }
      { settings with orientation := .bottomUp } where
  forwardKeys := rfl
  stepsPerFrame := rfl
  registers := by
    rintro board _ ⟨screen, -, rfl⟩
    rfl
  frames := by
    rintro board _ ⟨screen, mirrored, rfl⟩
    exact mirrored.frames
  redrawRequested := by
    rintro board _ ⟨screen, mirrored, rfl⟩
    exact mirrored.redrawRequested
  view := by
    rintro board _ ⟨screen, -, rfl⟩ address
    rfl
  coverage := by
    rintro board _ ⟨screen, -, rfl⟩
    exact (Alike.refl board.coverage).imp fun _ _ _ => trivial
  withBios := by
    rintro board _ image bios ⟨screen, mirrored, rfl⟩ -
    exact ⟨screen, mirrored, rfl⟩
  withCartridge := by
    rintro board _ image cartridge ⟨screen, mirrored, rfl⟩ -
    exact ⟨screen, mirrored, rfl⟩
  setTable := by
    rintro board _ ⟨screen, mirrored, rfl⟩ table
    exact ⟨screen, mirrored, rfl⟩
  setKeys := by
    rintro board _ ⟨screen, mirrored, rfl⟩ keys
    exact ⟨screen, mirrored, rfl⟩
  takeRedraw := by
    rintro board _ ⟨screen, mirrored, rfl⟩
    exact ⟨screen.takeRedraw.2, mirrored.takeRedraw, rfl⟩
  writeRegister := by
    rintro board _ ⟨screen, mirrored, rfl⟩ offset data
    exact writeRegister_mirrored mirrored offset data
  raise := by
    rintro board _ ⟨screen, mirrored, rfl⟩ offset mask
    apply (Alike.refl _).imp
    rintro raised _ rfl
    exact ⟨rfl, screen, mirrored, rfl⟩
  powerOn := by
    rintro board _ ⟨screen, -, rfl⟩
    exact ⟨.blank .bottomUp, Screen.mirrored_blank, rfl⟩

end Board

/-! ## Machines -/

/-- Equal cores stay equal as long as they are driven alike. -/
theorem Core.pairing_eq {σ : Type} [Core σ] : Core.Pairing Eq (Eq : σ → σ → Prop) where
  setClock := by
    rintro core _ rfl level
    rfl
  setReset := by
    rintro core _ rfl level
    rfl
  setRealTimeClock := by
    rintro core _ rfl level
    rfl
  setDataIn := by
    rintro core _ rfl data
    rfl
  setKeys := by
    rintro core _ rfl keys
    rfl
  settle := by
    rintro core _ rfl
    rfl
  shown := by
    rintro core _ rfl
    rfl
  lcdMemory := by
    rintro core _ rfl
    rfl
  lcdContrast := by
    rintro core _ rfl
    rfl

namespace Machine

variable {σ : Type} [Core σ]

/-- The machines are the same but for the orientation of their screens. -/
structure Mirrored (first second : Machine σ) : Prop where
  core : first.core = second.core
  bus : first.bus = second.bus
  running : first.running = second.running
  haltedAt : first.haltedAt = second.haltedAt
  settings : second.settings = { first.settings with orientation := .bottomUp }
  board : first.board.Mirrored second.board

theorem simulation_mirrored (settings : Settings) :
    Simulation .alike Eq (Eq : σ → σ → Prop) (fun _ => Board.Mirrored) Eq
      { settings with orientation := .topDown } { settings with orientation := .bottomUp } where
  coresPaired := Core.pairing_eq
  sameCore _ := rfl
  sameBus _ := rfl
  boardsSimulated := Board.simulation_mirrored settings
  boardsTended := Board.tended_mirrored settings
  transfers := by
    rintro first second frame _ linked rfl
    obtain ⟨screen, mirrored, others⟩ := linked.board
    apply transfer_linked Core.pairing_eq (fun _ => rfl) linked ⟨rfl, rfl, rfl, rfl, rfl⟩
      linked.board
    · intro address
      rw [others]
      apply (Board.fetch_mirrored mirrored _ _).imp
      rintro ⟨fetch, board⟩ ⟨otherFetch, otherBoard⟩ ⟨sameFetch, boardsMirrored⟩
      exact ⟨congrArg Fetch.data sameFetch, boardsMirrored⟩
    · intro bus
      rw [others]
      exact Board.store_mirrored mirrored bus

omit [Core σ] in
theorem Together.mirrored {settings : Settings} {first second : Machine σ}
    (together : Together Eq Board.Mirrored Eq { settings with orientation := .topDown }
      { settings with orientation := .bottomUp } first second) : first.Mirrored second where
  core := together.core
  bus := together.bus
  running := together.running
  haltedAt := together.haltedAt
  settings := by rw [together.settings, together.other]
  board := together.board

theorem start_together (core : σ) (settings : Settings) :
    Together Eq Board.Mirrored Eq { settings with orientation := .topDown }
      { settings with orientation := .bottomUp }
      (start core { settings with orientation := .topDown })
      (start core { settings with orientation := .bottomUp }) :=
  (simulation_mirrored settings).start rfl ⟨.blank .bottomUp, Screen.mirrored_blank, rfl⟩

/-- Orientation only mirrors. Two machines with equal cores, and with settings that differ
in the orientation only, are given the same row of actions. Either both run into the same
fault, or they give the same answers and have become the same machine up to the rows of the
screen, which are reversed. They do get through as long as the steps can be counted with
32 bits. -/
theorem orientation_only_mirrors (core : σ) (settings : Settings) (actions : List (Action σ)) :
    Alike (fun x y => x.1 = y.1 ∧ x.2.Mirrored y.2)
        ((start core { settings with orientation := .topDown }).respondAll actions)
        ((start core { settings with orientation := .bottomUp }).respondAll actions) ∧
      ((∀ action ∈ actions, action.Fits) → actions.length < 2 ^ 55 →
        (actions.map (Action.steps settings)).sum < 2 ^ 32 →
        Succeeds ((start core { settings with orientation := .topDown }).respondAll actions)) := by
  constructor
  · have alike := (simulation_mirrored settings).respondAll actions (start_together core settings)
    apply alike.imp
    rintro ⟨answers, first⟩ ⟨otherAnswers, second⟩ ⟨sameAnswers, together⟩
    exact ⟨sameAnswers, together.mirrored⟩
  · intro fits few short
    apply respondAll_start_succeeds core { settings with orientation := .topDown } fits few
    have sameSteps : Action.steps { settings with orientation := .topDown } =
        (Action.steps settings : Action σ → Nat) := by
      funext action
      cases action <;> rfl
    rwa [sameSteps]

/-- A core with two bytes of display memory renders a frame. The host is told to redraw, and
finds different screens. -/
theorem orientation_only_mirrors_rendered :
    let core := ScriptedCore.withLcd { script := ScriptedCore.renderDone } #[0x0F, 0xAA] 20
    let settings : Settings := { frameSource := .coreRenderDone, resetHalfCycles := 0 }
    ∃ first second,
      (start core { settings with orientation := .topDown }).respondAll
          [.step, .step, .takeRedraw] =
        .ok ([.ran none, .ran none, .redraw true], first) ∧
      (start core { settings with orientation := .bottomUp }).respondAll
          [.step, .step, .takeRedraw] =
        .ok ([.ran none, .ran none, .redraw true], second) ∧
      first.Mirrored second ∧ first.board.screen.frames.toNat = 1 ∧
      first.board.screen.row 59 ≠ second.board.screen.row 59 := by
  intro core settings
  obtain ⟨alike, succeeds⟩ := orientation_only_mirrors core settings [.step, .step, .takeRedraw]
  obtain ⟨⟨answers, first⟩, responded⟩ := succeeds
    (by
      simp only [List.forall_mem_cons]
      exact ⟨trivial, trivial, trivial, List.forall_mem_nil _⟩)
    (by decide) (by decide)
  obtain ⟨⟨_, second⟩, otherResponded, rfl, mirrored⟩ := alike.of_ok responded
  -- The first machine is a beacon, of which is known what its steps do to the screen.
  obtain ⟨_, _, next, moment, _, now, stepped, steppedAgain, session, due, wanted, seen⟩ :=
    steps_beacon
  have displays := session.displays (.start _ _)
  have frames : now.board.screen.frames.toNat = 1 := displays.frames.trans (congrArg _ due)
  have redraw : now.board.screen.redrawRequested = true := displays.redraw.trans wanted
  have pixels : now.board.screen.pixels = picture #[0x0F, 0xAA] 20 .topDown := by
    have latest : Event.latestPicture .topDown
        (Event.dueFrames .coreRenderDone [.stepped moment _, .stepped _ _]) = _ := displays.pixels
    rw [due, Event.latestPicture, seen] at latest
    exact (Except.ok.inj latest).symm
  have answered : beacon.respondAll [.step, .step, .takeRedraw] =
      .ok ([.ran none, .ran none, .redraw true], now.takeRedraw.2) := by
    simp only [respondAll, respond, stepped, steppedAgain, Except.map, ok_bind, takeRedraw,
      Screen.takeRedraw, redraw]
  cases Except.ok.inj (responded.symm.trans answered)
  refine ⟨_, second, responded, otherResponded, mirrored, frames, ?_⟩
  -- Row 59 of the second screen is row 4 of the first, which has a dark pixel.
  intro same
  obtain ⟨screen, rows, others⟩ := mirrored.board
  rw [others] at same
  have sameRows : now.board.screen.row 4 = now.board.screen.row 59 :=
    (rows.rows 4 (by decide)).trans same.symm
  rw [Screen.row, Screen.row, pixels, extract_picture _ _ _ (by decide),
    extract_picture _ _ _ (by decide)] at sameRows
  have samePixel := congrArg (fun row => row[0]?) sameRows
  exact absurd samePixel (by decide)

end Machine

end Handheld
