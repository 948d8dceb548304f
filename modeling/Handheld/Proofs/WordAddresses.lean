/-
# Word addresses

Working memory is addressed with numbers, of which only the remainder modulo its size
counts. On the board these addresses are words. They are cut to sixteen bits, wrap around
when something is added to them, and their lower twelve bits choose the cell.

The size of the memory divides that of every word, so cutting and wrapping make no
difference to the cell. This module says so for single accesses, for the view of memory,
and for the loop that composes the background.
-/

import Handheld.Proofs.Refresh.Tiles

namespace Handheld

open Checked

namespace Ram

/-- Offsets are masked, which is the same as taking the remainder. -/
theorem mod_size_eq_and (offset : Nat) : offset % size = offset &&& 0xFFF :=
  (Nat.and_two_pow_sub_one_eq_mod offset 12).symm

theorem read_congr {first second : Nat} (same : first % size = second % size) (ram : Ram) :
    ram.read first = ram.read second := by
  rw [read, read, same]

theorem write_congr {first second : Nat} (same : first % size = second % size) (ram : Ram)
    (data : UInt8) : ram.write first data = ram.write second data := by
  rw [write, write, same]

/-- The cell that a word addresses. -/
def cellOf (address : UInt16) : Nat :=
  (address.toUInt32 &&& 0xFFF).toNat

/-- The byte at a word address. -/
def readWord (ram : Ram) (address : UInt16) : Checked UInt8 :=
  Cells.get ram.cells (cellOf address)

/-- Replace the byte at a word address. -/
def writeWord (ram : Ram) (address : UInt16) (data : UInt8) : Checked Ram := do
  let cells ← Cells.set ram.cells (cellOf address) data
  .ok ⟨cells⟩

theorem cellOf_eq_mod (address : UInt16) : cellOf address = address.toNat % size := by
  rw [cellOf, UInt32.toNat_and, UInt16.toNat_toUInt32, mod_size_eq_and]
  rfl

/-- A number that is cut to a word addresses the same cell. -/
theorem cellOf_ofNat (offset : Nat) : cellOf (UInt16.ofNat offset) = offset % size := by
  rw [cellOf_eq_mod, UInt16.toNat_ofNat']
  exact Nat.mod_mod_of_dvd offset (by decide)

theorem readWord_ofNat (ram : Ram) (offset : Nat) :
    ram.readWord (UInt16.ofNat offset) = ram.read offset := by
  rw [readWord, cellOf_ofNat, read]

theorem writeWord_ofNat (ram : Ram) (offset : Nat) (data : UInt8) :
    ram.writeWord (UInt16.ofNat offset) data = ram.write offset data := by
  rw [writeWord, cellOf_ofNat, write]

end Ram

/-- The view of working memory takes the offset for a word. -/
theorem Board.view_of_ram {board : Board} {address : UInt32} {offset : Nat}
    (located : board.locate address = ⟨.ram, offset⟩) :
    board.view address = board.ram.readWord (UInt16.ofNat offset) := by
  rw [Board.view, located, Ram.readWord_ofNat]

namespace RefreshController

/-- The address of the entry that the tile map has for a column. -/
def entryAddress (page column : UInt16) : UInt16 :=
  let tile : UInt16 := column >>> 3
  0x1360 + page * 12 + tile

/-- The address of the byte that a tile has for a column. It is computed with the width of
the tile base, and cut to a word before the column is added. -/
def tileAddress (base : UInt32) (tile : UInt8) (column : UInt16) : UInt16 :=
  (base + tile.toUInt32 * 8).toUInt16 + (column &&& 7)

/-- The byte of a column, found with word addresses. -/
def wordTileByte (controller : RefreshController) (ram : Ram) (page column : Nat) :
    Checked UInt8 := do
  let tile ← ram.readWord (entryAddress (UInt16.ofNat page) (UInt16.ofNat column))
  ram.readWord (tileAddress controller.map tile (UInt16.ofNat column))

/-- Compose the background with word addresses. The bytes go to the addresses from 0x1000 on,
which are counted along. -/
def wordCompose (controller : RefreshController) (ram : Ram) :
    Checked ((Array UInt8 × Ram) × UInt16) :=
  let composeColumn (page column : Nat) (state : (Array UInt8 × Ram) × UInt16) :
      Checked ((Array UInt8 × Ram) × UInt16) := do
    let data ← controller.wordTileByte state.1.2 page column
    let ram ← state.1.2.writeWord state.2 data
    let planar ← Cells.set state.1.1 (page * Lcd.stride + column) data
    .ok ((planar, ram), state.2 + 1)
  let composePage (page : Nat) (state : (Array UInt8 × Ram) × UInt16) :
      Checked ((Array UInt8 × Ram) × UInt16) :=
    rounds (composeColumn page) state Lcd.width
  rounds composePage ((blank, ram), 0x1000) Lcd.pages

theorem entryAddress_ofNat (page : Nat) {column : Nat} (below : column < Lcd.width) :
    entryAddress (UInt16.ofNat page) (UInt16.ofNat column) =
      UInt16.ofNat (0x1360 + page * tileColumns + column / 8) := by
  have tile : UInt16.ofNat column >>> 3 = UInt16.ofNat (column / 8) := by
    simp only [Lcd.width] at below
    apply UInt16.toNat.inj
    simp only [UInt16.toNat_shiftRight, UInt16.toNat_ofNat', UInt16.toNat_ofNat,
      Nat.shiftRight_eq_div_pow, Nat.reduceMod, Nat.reducePow]
    omega
  rw [entryAddress, tile, UInt16.ofNat_add, UInt16.ofNat_add, UInt16.ofNat_mul]
  rfl

theorem tileAddress_ofNat (base : UInt32) (tile : UInt8) (column : Nat) :
    tileAddress base tile (UInt16.ofNat column) =
      UInt16.ofNat (base.toNat + tile.toNat * 8 + column % 8) := by
  have low : UInt16.ofNat column &&& 7 = UInt16.ofNat (column % 8) := by
    rw [← Nat.and_two_pow_sub_one_eq_mod column 3, UInt16.ofNat_and]
    rfl
  have cut : (base + tile.toUInt32 * 8).toUInt16 = UInt16.ofNat (base.toNat + tile.toNat * 8) := by
    apply UInt16.toNat.inj
    simp only [UInt32.toNat_toUInt16, UInt16.toNat_ofNat', UInt32.toNat_add, UInt32.toNat_mul,
      UInt8.toNat_toUInt32, UInt32.toNat_ofNat]
    omega
  rw [tileAddress, low, cut, ← UInt16.ofNat_add]

/-- Word addresses find the byte of the tile. -/
theorem wordTileByte_eq (controller : RefreshController) (ram : Ram) (page : Nat) {column : Nat}
    (below : column < Lcd.width) :
    controller.wordTileByte ram page column = controller.tileByte ram page column := by
  -- The address of the tile map is its offset and one size of the memory.
  have sameEntry : (0x1360 + page * tileColumns + column / 8) % Ram.size =
      (tileMap + page * tileColumns + column / 8) % Ram.size := by
    simp only [Ram.size, tileMap]
    omega
  unfold wordTileByte tileByte
  rw [entryAddress_ofNat page below, Ram.readWord_ofNat, Ram.read_congr sameEntry]
  congr 1
  funext tile
  rw [tileAddress_ofNat, Ram.readWord_ofNat]

/-- Composing with word addresses is composing, and ends behind the last byte. -/
theorem wordCompose_eq (controller : RefreshController) (ram : Ram) :
    controller.wordCompose ram = (controller.compose ram).map fun composed => (composed, 0x1300) := by
  rw [compose_eq_rounds]
  refine (rounds_rounds _ _ (by decide) _).trans ?_
  refine rounds_carrying (fun n => 0x1000 + UInt16.ofNat n) ?_ (blank, ram)
  rintro n - ⟨planar, ram⟩
  have written (data : UInt8) :
      ram.writeWord (0x1000 + UInt16.ofNat n) data = ram.write n data := by
    have word : (0x1000 + UInt16.ofNat n : UInt16) = UInt16.ofNat (0x1000 + n) :=
      (UInt16.ofNat_add 0x1000 n).symm
    rw [word, Ram.writeWord_ofNat]
    exact Ram.write_congr (Nat.add_mod_left _ _) ram data
  have counted : (0x1000 + UInt16.ofNat n : UInt16) + 1 = 0x1000 + UInt16.ofNat (n + 1) := by
    rw [UInt16.ofNat_add, UInt16.add_assoc]
    rfl
  dsimp only [composeColumn]
  rw [wordTileByte_eq _ _ _ (Nat.mod_lt _ (by decide)), counted, map_chain]
  congr 1
  funext data
  rw [written, map_chain]
  congr 1
  funext ram
  rw [map_chain]
  rfl

end RefreshController

end Handheld
