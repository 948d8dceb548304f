/-
# What painting leaves on the screen

Painting goes through pages, columns and bits, and sets one pixel at a time. No pixel
is set twice and none is left out, so that the result can be said pixel by pixel, and
does not depend on what the screen showed before.

The loops are read by what they overwrite: a round overwrites some cells, and all
rounds together overwrite the cells of any of them.
-/

import Handheld.Lcd.Screen
import Handheld.Proofs.Checked

namespace Handheld

open Checked

/-- The cells at some places have their final values, and all others are as before. -/
structure Cells.Overwrites {α : Type} (places : Nat → Prop) (value : Nat → α)
    (before after : Array α) : Prop where
  size : after.size = before.size
  inside : ∀ i, places i → get after i = .ok (value i)
  outside : ∀ i, ¬ places i → get after i = get before i

namespace Cells.Overwrites

variable {α : Type} {places : Nat → Prop} {value : Nat → α} {before after : Array α}

theorem refl (value : Nat → α) (cells : Array α) : Overwrites (fun _ => False) value cells cells :=
  ⟨rfl, fun _ nowhere => nowhere.elim, fun _ _ => rfl⟩

/-- What is overwritten later has the same values, so the order does not matter. -/
theorem trans {more : Nat → Prop} {last : Array α} (one : Overwrites places value before after)
    (two : Overwrites more value after last) :
    Overwrites (fun i => places i ∨ more i) value before last where
  size := two.size.trans one.size
  inside i somewhere := by
    by_cases later : more i
    · exact two.inside i later
    · rw [two.outside i later]
      exact one.inside i (somewhere.resolve_right later)
  outside i nowhere := by
    rw [two.outside i fun later => nowhere (.inr later)]
    exact one.outside i fun earlier => nowhere (.inl earlier)

theorem congr {others : Nat → Prop} (overwrites : Overwrites places value before after)
    (same : ∀ i, places i ↔ others i) : Overwrites others value before after where
  size := overwrites.size
  inside i somewhere := overwrites.inside i ((same i).mpr somewhere)
  outside i nowhere := overwrites.outside i fun somewhere => nowhere ((same i).mp somewhere)

/-- Setting a cell overwrites it. -/
theorem of_set {i : Nat} (inside : i < before.size) :
    ∃ after, Cells.set before i (value i) = .ok after ∧ Overwrites (· = i) value before after := by
  have set := Cells.set_eq_ok (value i) inside
  refine ⟨_, set, Cells.size_of_set set, ?_, ?_⟩
  · rintro _ rfl
    rw [Cells.get_of_set set, if_pos rfl]
  · intro j other
    rw [Cells.get_of_set set, if_neg other]

/-- If every round succeeds and overwrites its places, then all rounds succeed and
overwrite the places of all of them. -/
theorem of_rounds {body : Nat → Array α → Checked (Array α)} {places : Nat → Nat → Prop}
    {size count : Nat}
    (each : ∀ round < count, ∀ before : Array α, before.size = size →
      ∃ after, body round before = .ok after ∧ Overwrites (places round) value before after)
    {start : Array α} (sized : start.size = size) :
    ∃ final, rounds body start count = .ok final ∧
      Overwrites (fun i => ∃ round < count, places round i) value start final := by
  induction count with
  | zero =>
      refine ⟨start, rfl, (refl value start).congr fun i => ?_⟩
      exact ⟨False.elim, fun ⟨_, below, _⟩ => absurd below (Nat.not_lt_zero _)⟩
  | succ count ih =>
      obtain ⟨state, before, overwritten⟩ :=
        ih fun round below => each round (Nat.lt_succ_of_lt below)
      obtain ⟨final, last, lastOverwritten⟩ :=
        each count (Nat.lt_succ_self count) state (overwritten.size.trans sized)
      refine ⟨final, bind_eq_ok.mpr ⟨state, before, last⟩,
        (overwritten.trans lastOverwritten).congr fun i => ?_⟩
      constructor
      · rintro (⟨round, below, here⟩ | here)
        · exact ⟨round, Nat.lt_succ_of_lt below, here⟩
        · exact ⟨count, Nat.lt_succ_self count, here⟩
      · rintro ⟨round, below, here⟩
        rcases Nat.lt_succ_iff_lt_or_eq.mp below with earlier | rfl
        · exact .inl ⟨round, earlier, here⟩
        · exact .inr here

end Cells.Overwrites

/-- If the computation succeeds, the cells at some places have been there for it, and
none has been added. -/
def Cells.Reaches {α : Type} (computation : Checked (Array α)) (before : Array α)
    (places : Nat → Prop) : Prop :=
  ∀ after, computation = .ok after → after.size = before.size ∧ ∀ i, places i → i < before.size

namespace Cells.Reaches

variable {α : Type}

theorem of_set (cells : Array α) (i : Nat) (value : α) :
    Reaches (Cells.set cells i value) cells (· = i) := by
  intro after set
  obtain ⟨inside, rfl⟩ := Cells.of_set_eq_ok set
  refine ⟨Array.size_set .., ?_⟩
  rintro _ rfl
  exact inside

/-- Rounds that succeed reach the places of all of them. -/
theorem of_rounds {body : Nat → Array α → Checked (Array α)} {places : Nat → Nat → Prop}
    {count : Nat} {start : Array α}
    (each : ∀ round < count, ∀ before, Reaches (body round before) before (places round)) :
    Reaches (rounds body start count) start (fun i => ∃ round < count, places round i) := by
  induction count with
  | zero =>
      intro final ran
      cases ran
      exact ⟨rfl, fun i ⟨_, below, _⟩ => absurd below (Nat.not_lt_zero _)⟩
  | succ count ih =>
      intro final ran
      obtain ⟨state, earlier, last⟩ := bind_eq_ok.mp ran
      obtain ⟨sized, reached⟩ :=
        ih (fun round below => each round (Nat.lt_succ_of_lt below)) state earlier
      obtain ⟨lastSized, lastReached⟩ := each count (Nat.lt_succ_self count) state final last
      refine ⟨lastSized.trans sized, ?_⟩
      rintro i ⟨round, below, here⟩
      rcases Nat.lt_succ_iff_lt_or_eq.mp below with before | rfl
      · exact reached i ⟨round, before, here⟩
      · exact sized ▸ lastReached i here

end Cells.Reaches

/-- The screen row of a panel row, and the panel row of a screen row. -/
def Orientation.turn (orientation : Orientation) (y : Nat) : Nat :=
  match orientation with
  | .topDown => y
  | .bottomUp => Lcd.height - 1 - y

namespace Orientation

variable {y : Nat} (below : y < Lcd.height)
include below

theorem row_eq_turn (orientation : Orientation) : orientation.row y = .ok (orientation.turn y) := by
  cases orientation with
  | topDown => rfl
  | bottomUp => exact if_pos below

theorem turn_lt (orientation : Orientation) : orientation.turn y < Lcd.height := by
  cases orientation with
  | topDown => exact below
  | bottomUp =>
      simp only [turn, Lcd.height]
      omega

theorem turn_turn (orientation : Orientation) : orientation.turn (orientation.turn y) = y := by
  cases orientation with
  | topDown => rfl
  | bottomUp =>
      simp only [turn, Lcd.height] at below ⊢
      omega

/-- The two orientations show each other's rows in reverse. -/
theorem turn_reverse : turn .bottomUp (Lcd.height - 1 - y) = turn .topDown y := by
  simp only [turn, Lcd.height] at below ⊢
  omega

end Orientation

/-- The intensity of a pixel of the panel, by its column and row. -/
def Lcd.intensity (planar : Array UInt8) (contrast : UInt8) (x y : Nat) : UInt8 :=
  shade (grayLevel contrast) (planar.getD (y / 8 * stride + x) 0xFF) (y % 8)

/-- The intensity of a pixel of the screen, by its place in the buffer. -/
def Lcd.pixel (planar : Array UInt8) (contrast : UInt8) (orientation : Orientation) (i : Nat) :
    UInt8 :=
  intensity planar contrast (i % width) (orientation.turn (i / width))

theorem Lcd.pixel_eq (planar : Array UInt8) (contrast : UInt8) (orientation : Orientation)
    (y : Nat) {x : Nat} (xBelow : x < width) :
    pixel planar contrast orientation (y * width + x) =
      intensity planar contrast x (orientation.turn y) := by
  have column : (y * width + x) % width = x := by
    rw [Nat.mul_add_mod', Nat.mod_eq_of_lt xBelow]
  have row : (y * width + x) / width = y := by
    rw [Nat.mul_comm, Nat.mul_add_div (by decide), Nat.div_eq_of_lt xBelow, Nat.add_zero]
  rw [pixel, column, row]

theorem Lcd.row_lt {page bit : Nat} (pageBelow : page < pages) (bitBelow : bit < 8) :
    page * 8 + bit < height := by
  simp only [pages, height] at pageBelow ⊢
  omega

/-- Every pixel of the panel has its place on the screen. -/
theorem Lcd.lt_size_iff (orientation : Orientation) (i : Nat) :
    (∃ page < pages, ∃ x < width, ∃ bit < 8, i = orientation.turn (page * 8 + bit) * width + x) ↔
      i < width * height := by
  constructor
  · rintro ⟨page, pageBelow, x, xBelow, bit, bitBelow, rfl⟩
    have rowBelow := Orientation.turn_lt (row_lt pageBelow bitBelow) orientation
    simp only [width, height] at xBelow rowBelow ⊢
    omega
  · intro inside
    have below : i / width < height := Nat.div_lt_of_lt_mul inside
    have rowBelow := Orientation.turn_lt below orientation
    refine ⟨orientation.turn (i / width) / 8, ?_, i % width, Nat.mod_lt _ (by decide),
      orientation.turn (i / width) % 8, Nat.mod_lt _ (by decide), ?_⟩
    · simp only [pages, height] at rowBelow ⊢
      omega
    · rw [Nat.div_add_mod', Orientation.turn_turn below, Nat.div_add_mod']

section

variable (planar : Array UInt8) (contrast : UInt8) (orientation : Orientation)

/-- What is painted for a bit of a page is the pixel at its place on the screen. -/
theorem Lcd.pixel_turn {page x bit : Nat} (pageBelow : page < pages) (xBelow : x < width)
    (bitBelow : bit < 8) :
    pixel planar contrast orientation (orientation.turn (page * 8 + bit) * width + x) =
      shade (grayLevel contrast) (planar.getD (page * stride + x) 0xFF) bit := by
  have pageOf : (page * 8 + bit) / 8 = page := by omega
  have bitOf : (page * 8 + bit) % 8 = bit := by omega
  rw [pixel_eq _ _ _ _ xBelow, Orientation.turn_turn (row_lt pageBelow bitBelow), intensity, pageOf,
    bitOf]

/-- Painting gives every pixel of the screen its intensity, and leaves the rest of the
buffer alone. -/
theorem paint_overwrites {pixels : Array UInt8} (room : Lcd.width * Lcd.height ≤ pixels.size) :
    ∃ painted, paint planar contrast orientation pixels = .ok painted ∧
      Cells.Overwrites (· < Lcd.width * Lcd.height) (Lcd.pixel planar contrast orientation) pixels
        painted := by
  have painted : ∃ final, paint planar contrast orientation pixels = .ok final ∧
      Cells.Overwrites (fun i => ∃ page < Lcd.pages, ∃ x < Lcd.width, ∃ bit < 8,
          i = orientation.turn (page * 8 + bit) * Lcd.width + x)
        (Lcd.pixel planar contrast orientation) pixels final := by
    apply Cells.Overwrites.of_rounds _ rfl
    intro page pageBelow before sized
    apply Cells.Overwrites.of_rounds _ sized
    intro x xBelow before sized
    apply Cells.Overwrites.of_rounds _ sized
    intro bit bitBelow before sized
    have place : orientation.turn (page * 8 + bit) * Lcd.width + x < Lcd.width * Lcd.height :=
      (Lcd.lt_size_iff orientation _).mp ⟨page, pageBelow, x, xBelow, bit, bitBelow, rfl⟩
    rw [orientation.row_eq_turn (Lcd.row_lt pageBelow bitBelow), ok_bind,
      ← Lcd.pixel_turn planar contrast orientation pageBelow xBelow bitBelow]
    refine Cells.Overwrites.of_set (Nat.lt_of_lt_of_le place ?_)
    rwa [sized]
  obtain ⟨final, done, overwritten⟩ := painted
  exact ⟨final, done, overwritten.congr (Lcd.lt_size_iff orientation)⟩

theorem paint_ne_overflow (pixels : Array UInt8) :
    paint planar contrast orientation pixels ≠ .error .overflow := by
  apply rounds_ne_error
  intro page pageBelow _
  apply rounds_ne_error
  intro x _ _
  apply rounds_ne_error
  intro bit bitBelow before
  rw [orientation.row_eq_turn (Lcd.row_lt pageBelow bitBelow)]
  exact Cells.set_ne_overflow _ _ _

/-- Painting succeeds only where there is a cell for every pixel of the screen. -/
theorem paint_reaches (pixels : Array UInt8) :
    Cells.Reaches (paint planar contrast orientation pixels) pixels
      (fun i => ∃ page < Lcd.pages, ∃ x < Lcd.width, ∃ bit < 8,
        i = orientation.turn (page * 8 + bit) * Lcd.width + x) := by
  apply Cells.Reaches.of_rounds
  intro page pageBelow before
  apply Cells.Reaches.of_rounds
  intro x _ before
  apply Cells.Reaches.of_rounds
  intro bit bitBelow before
  rw [orientation.row_eq_turn (Lcd.row_lt pageBelow bitBelow)]
  exact Cells.Reaches.of_set _ _ _

/-- Painting sets the last pixel of the screen too, so that a smaller buffer will not do. -/
theorem paint_eq_error {pixels : Array UInt8} (short : pixels.size < Lcd.width * Lcd.height) :
    paint planar contrast orientation pixels = .error .outOfBounds := by
  cases painted : paint planar contrast orientation pixels with
  | error fault =>
      cases fault with
      | outOfBounds => rfl
      | overflow => exact absurd painted (paint_ne_overflow planar contrast orientation pixels)
  | ok final =>
      obtain ⟨-, reached⟩ := paint_reaches planar contrast orientation pixels final painted
      have last : Lcd.width * Lcd.height - 1 < pixels.size :=
        reached _ ((Lcd.lt_size_iff orientation _).mpr (by decide))
      omega

end

/-- What painting makes of a screen of its own size. -/
def picture (planar : Array UInt8) (contrast : UInt8) (orientation : Orientation) : Array UInt8 :=
  .ofFn fun i : Fin (Lcd.width * Lcd.height) => Lcd.pixel planar contrast orientation i

theorem size_picture (planar : Array UInt8) (contrast : UInt8) (orientation : Orientation) :
    (picture planar contrast orientation).size = Lcd.width * Lcd.height :=
  Array.size_ofFn

theorem getElem_picture {planar : Array UInt8} {contrast : UInt8} {orientation : Orientation}
    {i : Nat} (inside : i < (picture planar contrast orientation).size) :
    (picture planar contrast orientation)[i] = Lcd.pixel planar contrast orientation i :=
  Array.getElem_ofFn inside

-- Its size is a large literal, which nothing should try to count down.
attribute [irreducible] picture

/-- On a screen of its own size painting leaves nothing of what was there. -/
theorem paint_eq_picture (planar : Array UInt8) (contrast : UInt8) (orientation : Orientation)
    {pixels : Array UInt8} (sized : pixels.size = Lcd.width * Lcd.height) :
    paint planar contrast orientation pixels = .ok (picture planar contrast orientation) := by
  obtain ⟨painted, done, overwritten⟩ :=
    paint_overwrites planar contrast orientation (Nat.le_of_eq sized.symm)
  rw [done]
  refine congrArg Except.ok (Array.ext ?_ ?_)
  · rw [overwritten.size, sized, size_picture]
  · intro i inside otherInside
    have below : i < Lcd.width * Lcd.height := by
      rw [overwritten.size, sized] at inside
      exact inside
    obtain ⟨_, painted_i⟩ := Cells.of_get_eq_ok (overwritten.inside i below)
    rw [painted_i, getElem_picture]

/-- A row of the screen. -/
def Screen.row (screen : Screen) (y : Nat) : Array UInt8 :=
  screen.pixels.extract (y * Lcd.width) ((y + 1) * Lcd.width)

/-- A row of a picture is a row of the panel. -/
theorem extract_picture (planar : Array UInt8) (contrast : UInt8) (orientation : Orientation)
    {y : Nat} (below : y < Lcd.height) :
    (picture planar contrast orientation).extract (y * Lcd.width) ((y + 1) * Lcd.width) =
      .ofFn fun x : Fin Lcd.width => Lcd.intensity planar contrast x (orientation.turn y) := by
  have width : min ((y + 1) * Lcd.width) (Lcd.width * Lcd.height) - y * Lcd.width = Lcd.width := by
    simp only [Lcd.width, Lcd.height] at below ⊢
    omega
  apply Array.ext
  · rw [Array.size_extract, size_picture, width, Array.size_ofFn]
  · intro x inside otherInside
    rw [Array.size_extract, size_picture, width] at inside
    rw [Array.getElem_extract, getElem_picture, Lcd.pixel_eq _ _ _ _ inside, Array.getElem_ofFn]

end Handheld
