/-
# Painting, pixel by pixel

Painting is a row of 6144 strokes, each of which sets one cell of the buffer. The cells
come in the order of pages, columns and bits, which is none that the buffer knows; but no
cell comes twice and none is left out. So what a pixel shows is a matter of one bit of
planar memory, never of what was in the buffer before.
-/

import Mathlib.Data.Finset.Card
import Handheld.Proofs.Lcd.Picture

namespace Handheld

open Checked

/-- The cell that a stroke sets. Eight strokes make a column, and 96 columns a page. -/
def Lcd.strokeAt (orientation : Orientation) (n : Nat) : Nat :=
  orientation.turn (n / 8 / width * 8 + n % 8) * width + n / 8 % width

/-- Every cell of the screen is set by one stroke. -/
theorem Lcd.strokeAt_bijOn (orientation : Orientation) :
    Set.BijOn (strokeAt orientation) (Set.Iio (width * height)) (Set.Iio (width * height)) := by
  have maps : Set.MapsTo (strokeAt orientation) (Set.Iio (width * height))
      (Set.Iio (width * height)) := by
    intro n below
    have pageBelow : n / 8 / width < pages := by
      simp only [Set.mem_Iio, width, height, pages] at below ⊢
      omega
    exact (lt_size_iff orientation _).mp ⟨n / 8 / width, pageBelow, n / 8 % width,
      Nat.mod_lt _ (by decide), n % 8, Nat.mod_lt _ (by decide), rfl⟩
  have reaches : Set.SurjOn (strokeAt orientation) (Set.Iio (width * height))
      (Set.Iio (width * height)) := by
    intro i below
    obtain ⟨page, pageBelow, x, xBelow, bit, bitBelow, rfl⟩ := (lt_size_iff orientation i).mpr below
    simp only [width, pages] at pageBelow xBelow
    have column : ((page * 96 + x) * 8 + bit) / 8 = page * 96 + x := by omega
    have row : (page * 96 + x) / 96 = page ∧ (page * 96 + x) % 96 = x := by omega
    refine ⟨(page * 96 + x) * 8 + bit, ?_, ?_⟩
    · simp only [Set.mem_Iio, width, height]
      omega
    · simp only [strokeAt, width]
      rw [column, row.1, row.2, Nat.mul_add_mod', Nat.mod_eq_of_lt bitBelow]
  -- There are as many strokes as cells, so none can be set twice.
  have once : Set.InjOn (strokeAt orientation) (Set.Iio (width * height)) := by
    rw [← Finset.coe_range] at maps reaches ⊢
    exact Finset.injOn_of_surjOn_of_card_le _ maps reaches le_rfl
  exact ⟨maps, once, reaches⟩

/-- Paint one bit of a column byte. -/
def paintBit (planar : Array UInt8) (contrast : UInt8) (orientation : Orientation)
    (page x bit : Nat) (pixels : Array UInt8) : Checked (Array UInt8) := do
  let y ← orientation.row (page * 8 + bit)
  Cells.set pixels (y * Lcd.width + x)
    (shade (grayLevel contrast) (planar.getD (page * Lcd.stride + x) 0xFF) bit)

/-- A bit is painted as one stroke, with a colour that the buffer does not decide. -/
theorem paintBit_eq_stroke (planar : Array UInt8) (contrast : UInt8) (orientation : Orientation)
    {n : Nat} (below : n < Lcd.width * Lcd.height) :
    paintBit planar contrast orientation (n / 8 / Lcd.width) (n / 8 % Lcd.width) (n % 8) =
      fun pixels => Cells.set pixels (Lcd.strokeAt orientation n)
        (Lcd.pixel planar contrast orientation (Lcd.strokeAt orientation n)) := by
  have pageBelow : n / 8 / Lcd.width < Lcd.pages := by
    simp only [Lcd.width, Lcd.height, Lcd.pages] at below ⊢
    omega
  have xBelow : n / 8 % Lcd.width < Lcd.width := Nat.mod_lt _ (by decide)
  have bitBelow : n % 8 < 8 := Nat.mod_lt _ (by decide)
  funext pixels
  simp only [paintBit, Lcd.strokeAt]
  rw [orientation.row_eq_turn (Lcd.row_lt pageBelow bitBelow), ok_bind,
    Lcd.pixel_turn planar contrast orientation pageBelow xBelow bitBelow]

/-- The loops of painting are one row of strokes. -/
theorem paint_eq_rounds (planar : Array UInt8) (contrast : UInt8) (orientation : Orientation)
    (pixels : Array UInt8) :
    paint planar contrast orientation pixels =
      rounds (fun n pixels => Cells.set pixels (Lcd.strokeAt orientation n)
          (Lcd.pixel planar contrast orientation (Lcd.strokeAt orientation n)))
        pixels (Lcd.width * Lcd.height) :=
  calc
    paint planar contrast orientation pixels =
        rounds (fun page pixels => rounds (fun x pixels =>
          rounds (paintBit planar contrast orientation page x) pixels 8) pixels Lcd.width) pixels
          Lcd.pages := rfl
    _ = rounds (fun column pixels => rounds (paintBit planar contrast orientation
          (column / Lcd.width) (column % Lcd.width)) pixels 8) pixels (Lcd.pages * Lcd.width) :=
      rounds_rounds (fun page x pixels => rounds (paintBit planar contrast orientation page x)
        pixels 8) pixels (by decide) _
    _ = rounds (fun n => paintBit planar contrast orientation (n / 8 / Lcd.width)
          (n / 8 % Lcd.width) (n % 8)) pixels (Lcd.pages * Lcd.width * 8) :=
      rounds_rounds (fun column => paintBit planar contrast orientation (column / Lcd.width)
        (column % Lcd.width)) pixels (by decide) _
    _ = _ := rounds_congr (fun _ below => paintBit_eq_stroke planar contrast orientation below)
      pixels

theorem shade_eq (dark data : UInt8) {bit : Nat} (below : bit < 8) :
    shade dark data bit = if data.toNat.testBit bit then 255 else dark := by
  have lit : (data >>> UInt8.ofNat bit &&& 1 != 0) = data.toNat.testBit bit := by
    rw [Nat.testBit, Nat.and_comm, Bool.eq_iff_iff, bne_iff_ne, bne_iff_ne, ne_eq, ne_eq,
      ← UInt8.toNat_inj, UInt8.toNat_and, UInt8.toNat_shiftRight, UInt8.toNat_ofNat',
      Nat.mod_eq_of_lt (by omega : bit < 2 ^ 8), Nat.mod_eq_of_lt below]
    rfl
  rw [shade, lit]

/-- A pixel is white where its bit is set or missing, and as dark as the contrast makes it
elsewhere. -/
theorem Lcd.toNat_intensity (planar : Array UInt8) (contrast : UInt8) (x y : Nat) :
    (intensity planar contrast x y).toNat =
      if planar[y / 8 * 132 + x]?.all (·.toNat.testBit (y % 8)) then 255
      else 255 * (32 - min contrast.toNat 32) / 32 := by
  have dark : (grayLevel contrast).toNat = 255 * (32 - min contrast.toNat 32) / 32 := by
    show (UInt8.ofNat (255 * (32 - min contrast.toNat 32) / 32)).toNat = _
    exact UInt8.toNat_ofNat_of_lt' (by simp only [UInt8.size]; omega)
  have missing : ∀ bit < 8, Nat.testBit 255 bit = true := by decide
  have bitBelow : y % 8 < 8 := Nat.mod_lt _ (by decide)
  rw [intensity, shade_eq _ _ bitBelow, apply_ite UInt8.toNat, dark,
    Array.getD_eq_getD_getElem?]
  simp only [stride]
  obtain none | ⟨data, found⟩ := Option.eq_none_or_eq_some planar[y / 8 * 132 + x]?
  · simp [none, missing _ bitBelow]
  · simp [found]

/-- Hidden columns are not looked at. -/
theorem Lcd.pixel_congr {planar other : Array UInt8} {contrast : UInt8} {orientation : Orientation}
    (same : ∀ page < pages, ∀ x < width, other[page * stride + x]? = planar[page * stride + x]?)
    {i : Nat} (below : i < width * height) :
    pixel other contrast orientation i = pixel planar contrast orientation i := by
  have rowBelow := Orientation.turn_lt (Nat.div_lt_of_lt_mul below) orientation
  have pageBelow : orientation.turn (i / width) / 8 < pages := by
    simp only [pages, height] at rowBelow ⊢
    omega
  rw [pixel, pixel, intensity, intensity, Array.getD_eq_getD_getElem?, Array.getD_eq_getD_getElem?,
    same _ pageBelow _ (Nat.mod_lt _ (by decide))]

/-- On a buffer with room for every pixel, painting leaves the pixel of column `x` and row
`y` of the panel in its place: white if its bit is set or past the end of planar memory,
and as dark as the contrast makes it otherwise. The cells beyond the screen stay as they
were. No pixel depends on what the buffer held or on the hidden columns, because painting
is a row of strokes that sets every cell of the screen once. A shorter buffer is a fault. -/
theorem paint_pointwise (planar : Array UInt8) (contrast : UInt8) (orientation : Orientation)
    (pixels : Array UInt8) :
    (6144 ≤ pixels.size →
      ∃ painted, paint planar contrast orientation pixels = .ok painted ∧
        painted.size = pixels.size ∧
        (∀ x < 96, ∀ y < 64, orientation.row y = .ok (orientation.turn y) ∧
          painted[orientation.turn y * 96 + x]?.map UInt8.toNat =
            some (if planar[y / 8 * 132 + x]?.all (·.toNat.testBit (y % 8)) then 255
              else 255 * (32 - min contrast.toNat 32) / 32)) ∧
        (∀ i, 6144 ≤ i → painted[i]? = pixels[i]?) ∧
        ∀ otherPlanar others : Array UInt8, 6144 ≤ others.size →
          (∀ page < 8, ∀ x < 96, otherPlanar[page * 132 + x]? = planar[page * 132 + x]?) →
          ∃ otherPainted, paint otherPlanar contrast orientation others = .ok otherPainted ∧
            ∀ i < 6144, otherPainted[i]? = painted[i]?) ∧
    (paint planar contrast orientation pixels =
        rounds (fun n pixels => Cells.set pixels (Lcd.strokeAt orientation n)
          (Lcd.pixel planar contrast orientation (Lcd.strokeAt orientation n))) pixels 6144 ∧
      Set.BijOn (Lcd.strokeAt orientation) (Set.Iio 6144) (Set.Iio 6144)) ∧
    (pixels.size < 6144 → paint planar contrast orientation pixels = .error .outOfBounds) := by
  refine ⟨?_, ⟨paint_eq_rounds planar contrast orientation pixels,
    Lcd.strokeAt_bijOn orientation⟩, paint_eq_error planar contrast orientation⟩
  intro room
  obtain ⟨painted, done, overwritten⟩ := paint_overwrites planar contrast orientation room
  have shown (i : Nat) (below : i < 6144) :
      painted[i]? = some (Lcd.pixel planar contrast orientation i) := by
    rw [← Cells.toOption_get, overwritten.inside i below]
    rfl
  refine ⟨painted, done, overwritten.size, ?_, ?_, ?_⟩
  · intro x xBelow y yBelow
    have place := Orientation.turn_lt yBelow orientation
    have inside : orientation.turn y * 96 + x < 6144 := by
      simp only [Lcd.height] at place
      omega
    have pixel : Lcd.pixel planar contrast orientation (orientation.turn y * 96 + x) =
        Lcd.intensity planar contrast x y := by
      refine (Lcd.pixel_eq planar contrast orientation _ xBelow).trans ?_
      rw [Orientation.turn_turn yBelow]
    refine ⟨orientation.row_eq_turn yBelow, ?_⟩
    rw [shown _ inside, pixel, Option.map_some, Lcd.toNat_intensity]
  · intro i beyond
    exact Cells.getElem?_eq_of_get_eq (overwritten.outside i (Nat.not_lt.mpr beyond))
  · intro otherPlanar others otherRoom sameVisible
    obtain ⟨otherPainted, otherDone, otherOverwritten⟩ :=
      paint_overwrites otherPlanar contrast orientation otherRoom
    refine ⟨otherPainted, otherDone, fun i below => ?_⟩
    rw [shown i below, ← Cells.toOption_get, otherOverwritten.inside i below,
      Lcd.pixel_congr sameVisible below]
    rfl

end Handheld
