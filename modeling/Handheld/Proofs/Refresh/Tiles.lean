/-
# The background, tile by tile

Composing goes through the visible columns of all pages. For each it looks a tile up in the
tile map, reads one byte of the tile, and puts the byte into planar memory and into one of
the first 768 cells of working memory.

The memory that is written is the memory that is read. The tile map lies beyond the 768
cells and is safe, but a tile may lie among them, and then it is read as the columns
before have left it. Where no tile does, every column shows a byte that was there from the
start, and composing once more changes nothing.
-/

import Handheld.Proofs.Board.Progress

namespace Handheld

open Checked

namespace Lcd

/-- The place in planar memory of a visible column, counted through all pages. -/
def columnAt (n : Nat) : Nat :=
  n / width * stride + n % width

/-- The columns of a page come in a row. -/
theorem column_div_mod (page : Nat) {column : Nat} (below : column < width) :
    (page * width + column) / width = page ∧ (page * width + column) % width = column := by
  simp only [width] at below ⊢
  omega

theorem columnAt_add (page : Nat) {column : Nat} (below : column < width) :
    columnAt (page * width + column) = page * stride + column := by
  obtain ⟨inPage, inRow⟩ := column_div_mod page below
  rw [columnAt, inPage, inRow]

theorem column_lt {page column : Nat} (pageBelow : page < pages) (columnBelow : column < width) :
    page * width + column < pages * width := by
  simp only [pages, width] at pageBelow columnBelow ⊢
  omega

theorem column_bounds {n : Nat} (below : n < pages * width) :
    n / width < pages ∧ n % width < width :=
  ⟨Nat.div_lt_of_lt_mul (Nat.mul_comm _ _ ▸ below), Nat.mod_lt _ (by decide)⟩

theorem columnAt_lt {n : Nat} (below : n < pages * width) : columnAt n < pages * stride := by
  simp only [columnAt, pages, width, stride] at below ⊢
  omega

theorem columnAt_injective : Function.Injective columnAt := by
  intro m n same
  simp only [columnAt, width, stride] at same
  omega

/-- A place in planar memory belongs to a visible column or to a hidden one. -/
theorem exists_columnAt_or_hidden {i : Nat} (below : i < pages * stride) :
    (∃ n < pages * width, columnAt n = i) ∨ ∀ n, columnAt n ≠ i := by
  simp only [columnAt, pages, width, stride] at below ⊢
  by_cases visible : i % 132 < 96
  · left
    exact ⟨i / 132 * 96 + i % 132, by omega, by omega⟩
  · right
    intro n
    omega

end Lcd

namespace RefreshController

/-- The byte that a visible column is to show: one of those of the tile that the tile map
has for it. -/
def tileByte (controller : RefreshController) (ram : Ram) (page column : Nat) : Checked UInt8 := do
  let tile ← ram.read (tileMap + page * tileColumns + column / 8)
  ram.read (controller.map.toNat + tile.toNat * 8 + column % 8)

/-- Compose a visible column. -/
def composeColumn (controller : RefreshController) (n : Nat) (state : Array UInt8 × Ram) :
    Checked (Array UInt8 × Ram) := do
  let data ← controller.tileByte state.2 (n / Lcd.width) (n % Lcd.width)
  let ram ← state.2.write n data
  let planar ← Cells.set state.1 (Lcd.columnAt n) data
  .ok (planar, ram)

/-- Planar memory with nothing to see. -/
def blank : Array UInt8 :=
  .replicate (Lcd.pages * Lcd.stride) 0xFF

theorem compose_eq_rounds (controller : RefreshController) (ram : Ram) :
    controller.compose ram =
      rounds controller.composeColumn (blank, ram) (Lcd.pages * Lcd.width) := by
  refine (rounds_rounds _ _ (by decide) _).trans (rounds_congr ?_ _)
  intro n _
  funext state
  obtain ⟨planar, ram⟩ := state
  dsimp only [composeColumn, tileByte]
  rw [Nat.div_add_mod']
  cases ram.read (tileMap + n / Lcd.width * tileColumns + n % Lcd.width / 8) <;> rfl

variable {controller : RefreshController} {start ram other : Ram} {planar : Array UInt8}

/-- What the first `count` columns have made of planar and working memory, which was
`start`. A byte composed is a byte of a tile, in a memory that has changed at most among
the composed bytes. -/
structure Composing (controller : RefreshController) (start : Ram) (count : Nat)
    (planar : Array UInt8) (ram : Ram) : Prop where
  planarSize : planar.size = Lcd.pages * Lcd.stride
  ramSize : ram.cells.size = start.cells.size
  shown : ∀ n < count, Cells.get planar (Lcd.columnAt n) = Cells.get ram.cells n
  hidden : ∀ i < Lcd.pages * Lcd.stride, (∀ n < count, Lcd.columnAt n ≠ i) →
    Cells.get planar i = .ok 0xFF
  kept : ∀ i, count ≤ i → Cells.get ram.cells i = Cells.get start.cells i
  composed : ∀ n < count, ∃ before : Ram,
    (∀ i, count ≤ i → Cells.get before.cells i = Cells.get start.cells i) ∧
      Cells.get ram.cells n = controller.tileByte before (n / Lcd.width) (n % Lcd.width)

theorem Composing.zero (controller : RefreshController) (ram : Ram) :
    Composing controller ram 0 blank ram where
  planarSize := Array.size_replicate
  ramSize := rfl
  shown := nofun
  hidden _ below _ := Cells.get_replicate below
  kept _ _ := rfl
  composed := nofun

/-- The next column is composed from what the ones before it have left. -/
theorem Composing.succ {count : Nat} (composing : Composing controller start count planar ram)
    (below : count < Lcd.pages * Lcd.width) {final : Array UInt8 × Ram}
    (columnComposed : controller.composeColumn count (planar, ram) = .ok final) :
    Composing controller start (count + 1) final.1 final.2 := by
  obtain ⟨data, read, rest⟩ := bind_eq_ok.mp columnComposed
  obtain ⟨written, ramWritten, rest⟩ := bind_eq_ok.mp rest
  obtain ⟨drawn, planarSet, same⟩ := bind_eq_ok.mp rest
  cases same
  obtain ⟨cells, cellSet, same⟩ := bind_eq_ok.mp ramWritten
  cases same
  have place : count % Ram.size = count := Nat.mod_eq_of_lt (below.trans (by decide))
  rw [place] at cellSet
  have ramCell := Cells.get_of_set cellSet
  have planarCell := Cells.get_of_set planarSet
  dsimp only at read ramCell planarCell ⊢
  refine ⟨(Cells.size_of_set planarSet).trans composing.planarSize,
    (Cells.size_of_set cellSet).trans composing.ramSize, ?_, ?_, ?_, ?_⟩
  · intro n nBelow
    rw [ramCell, planarCell]
    by_cases last : n = count
    · rw [if_pos last, if_pos (congrArg _ last)]
    · rw [if_neg last, if_neg (Lcd.columnAt_injective.ne last)]
      exact composing.shown n (by omega)
  · intro i inside elsewhere
    rw [planarCell, if_neg (elsewhere count (Nat.lt_succ_self count)).symm]
    exact composing.hidden i inside fun n nBelow => elsewhere n (Nat.lt_succ_of_lt nBelow)
  · intro i beyond
    rw [ramCell, if_neg (by omega)]
    exact composing.kept i (by omega)
  · intro n nBelow
    rw [ramCell]
    by_cases last : n = count
    · rw [if_pos last, last]
      exact ⟨ram, fun i beyond => composing.kept i (by omega), read.symm⟩
    · rw [if_neg last]
      obtain ⟨before, same, composed⟩ := composing.composed n (by omega)
      exact ⟨before, fun i beyond => same i (by omega), composed⟩

theorem Composing.of_rounds {count : Nat} (enough : count ≤ Lcd.pages * Lcd.width)
    (ran : rounds controller.composeColumn (blank, start) count = .ok (planar, ram)) :
    Composing controller start count planar ram := by
  induction count generalizing planar ram with
  | zero =>
      cases ran
      exact .zero controller start
  | succ count ih =>
      obtain ⟨⟨planar, ram⟩, before, last⟩ := bind_eq_ok.mp ran
      exact (ih (Nat.le_of_succ_le enough) before).succ enough last

/-- All visible columns have been composed. -/
def Composed (controller : RefreshController) (start : Ram) (planar : Array UInt8) (ram : Ram) :
    Prop :=
  Composing controller start (Lcd.pages * Lcd.width) planar ram

theorem composed_of_compose (done : controller.compose start = .ok (planar, ram)) :
    Composed controller start planar ram := by
  rw [compose_eq_rounds] at done
  exact .of_rounds le_rfl done

/-- Working memory determines planar memory. -/
theorem Composed.planar_eq {earlier : Ram} {otherPlanar : Array UInt8}
    (composed : Composed controller start planar ram)
    (otherComposed : Composed controller earlier otherPlanar ram) : planar = otherPlanar := by
  have same (i : Nat) (below : i < Lcd.pages * Lcd.stride) :
      Cells.get planar i = Cells.get otherPlanar i := by
    obtain ⟨n, nBelow, rfl⟩ | elsewhere := Lcd.exists_columnAt_or_hidden below
    · rw [composed.shown n nBelow, otherComposed.shown n nBelow]
    · rw [composed.hidden i below fun n _ => elsewhere n,
        otherComposed.hidden i below fun n _ => elsewhere n]
  apply Array.ext (composed.planarSize.trans otherComposed.planarSize.symm)
  intro i inside otherInside
  have cell := same i (composed.planarSize ▸ inside)
  rw [Cells.get_eq_ok inside, Cells.get_eq_ok otherInside] at cell
  exact Except.ok.inj cell

/-! ## Tiles that lie apart -/

/-- The offset in working memory of the byte that a visible column is to show. -/
def tileOffset (controller : RefreshController) (ram : Ram) (page column : Nat) : Nat :=
  (controller.map.toNat + 8 * (ram.cells.getD (0x360 + page * 12 + column / 8) 0).toNat +
    column % 8) % 0x1000

/-- No tile lies among the bytes that are composed from it. -/
def TilesApart (controller : RefreshController) (ram : Ram) : Prop :=
  ∀ page < 8, ∀ column < 96, 0x300 ≤ controller.tileOffset ram page column

variable {page column : Nat}

/-- The tile map lies in working memory, beyond the composed bytes. -/
theorem tileMap_bounds (pageBelow : page < Lcd.pages) (columnBelow : column < Lcd.width) :
    Lcd.pages * Lcd.width ≤ tileMap + page * tileColumns + column / 8 ∧
      tileMap + page * tileColumns + column / 8 < Ram.size := by
  simp only [Lcd.pages, Lcd.width, tileMap, tileColumns, Ram.size] at pageBelow columnBelow ⊢
  omega

theorem tileOffset_of_read {tile : UInt8} (pageBelow : page < Lcd.pages)
    (columnBelow : column < Lcd.width)
    (read : ram.read (tileMap + page * tileColumns + column / 8) = .ok tile) :
    controller.tileOffset ram page column =
      (controller.map.toNat + tile.toNat * 8 + column % 8) % Ram.size := by
  unfold Ram.read at read
  rw [Nat.mod_eq_of_lt (tileMap_bounds pageBelow columnBelow).2] at read
  obtain ⟨inside, rfl⟩ := Cells.of_get_eq_ok read
  have found : ram.cells.getD (0x360 + page * 12 + column / 8) 0 =
      ram.cells[tileMap + page * tileColumns + column / 8] :=
    (Array.getElem_eq_getD 0).symm
  rw [tileOffset, found, Nat.mul_comm 8]
  rfl

/-- A byte of a tile is the byte at its offset. -/
theorem get_tileOffset {data : UInt8} (pageBelow : page < Lcd.pages)
    (columnBelow : column < Lcd.width) (read : controller.tileByte ram page column = .ok data) :
    Cells.get ram.cells (controller.tileOffset ram page column) = .ok data := by
  obtain ⟨tile, tileRead, dataRead⟩ := bind_eq_ok.mp read
  rw [tileOffset_of_read pageBelow columnBelow tileRead]
  exact dataRead

/-- A tile apart is read the same from any memory that differs among the composed bytes
alone. -/
theorem tileByte_congr (pageBelow : page < Lcd.pages) (columnBelow : column < Lcd.width)
    (same : ∀ i, Lcd.pages * Lcd.width ≤ i → Cells.get other.cells i = Cells.get ram.cells i)
    (apart : Lcd.pages * Lcd.width ≤ controller.tileOffset ram page column) :
    controller.tileByte other page column = controller.tileByte ram page column := by
  have bounds := tileMap_bounds pageBelow columnBelow
  have sameTile : other.read (tileMap + page * tileColumns + column / 8) =
      ram.read (tileMap + page * tileColumns + column / 8) := by
    rw [Ram.read, Ram.read, Nat.mod_eq_of_lt bounds.2, same _ bounds.1]
  unfold tileByte
  rw [sameTile]
  cases read : ram.read (tileMap + page * tileColumns + column / 8) with
  | error failure => rfl
  | ok tile =>
      rw [tileOffset_of_read pageBelow columnBelow read] at apart
      exact same _ apart

namespace Composed

/-- Where tiles lie apart, what is composed are the tiles of the memory at the start. -/
theorem get_eq_tileByte (composed : Composed controller start planar ram)
    (apart : TilesApart controller start) {n : Nat} (below : n < Lcd.pages * Lcd.width) :
    Cells.get ram.cells n = controller.tileByte start (n / Lcd.width) (n % Lcd.width) := by
  obtain ⟨pageBelow, columnBelow⟩ := Lcd.column_bounds below
  obtain ⟨before, same, composedAt⟩ := composed.composed n below
  rw [composedAt]
  exact tileByte_congr pageBelow columnBelow same (apart _ pageBelow _ columnBelow)

/-- The tiles themselves are still what they were. -/
theorem tileByte_eq (composed : Composed controller start planar ram)
    (apart : TilesApart controller start) {n : Nat} (below : n < Lcd.pages * Lcd.width) :
    controller.tileByte ram (n / Lcd.width) (n % Lcd.width) = Cells.get ram.cells n := by
  obtain ⟨pageBelow, columnBelow⟩ := Lcd.column_bounds below
  rw [composed.get_eq_tileByte apart below]
  exact tileByte_congr pageBelow columnBelow composed.kept (apart _ pageBelow _ columnBelow)

theorem get_succeeds (composed : Composed controller start planar ram) {n : Nat}
    (below : n < Lcd.pages * Lcd.width) : Succeeds (Cells.get ram.cells n) := by
  rw [← composed.shown n below]
  exact Cells.get_succeeds (composed.planarSize ▸ Lcd.columnAt_lt below)

/-- A visible column shows what working memory has for it. -/
theorem get_visible (composed : Composed controller start planar ram) (pageBelow : page < Lcd.pages)
    (columnBelow : column < Lcd.width) :
    Cells.get planar (page * Lcd.stride + column) =
      Cells.get ram.cells (page * Lcd.width + column) := by
  rw [← Lcd.columnAt_add page columnBelow]
  exact composed.shown _ (Lcd.column_lt pageBelow columnBelow)

/-- A hidden column is blank. -/
theorem get_hidden (composed : Composed controller start planar ram) (pageBelow : page < Lcd.pages)
    (columnBelow : column < Lcd.stride) (hidden : Lcd.width ≤ column) :
    Cells.get planar (page * Lcd.stride + column) = .ok 0xFF := by
  simp only [Lcd.pages, Lcd.stride, Lcd.width] at pageBelow columnBelow hidden
  apply composed.hidden
  · simp only [Lcd.pages, Lcd.stride]
    omega
  · intro n _
    simp only [Lcd.columnAt, Lcd.width, Lcd.stride]
    omega

/-- Where tiles lie apart, a visible column shows what was at its offset at the start. -/
theorem get_visible_of_apart (composed : Composed controller start planar ram)
    (apart : TilesApart controller start) (pageBelow : page < Lcd.pages)
    (columnBelow : column < Lcd.width) :
    Cells.get planar (page * Lcd.stride + column) =
      Cells.get start.cells (controller.tileOffset start page column) := by
  have below := Lcd.column_lt pageBelow columnBelow
  obtain ⟨data, held⟩ := composed.get_succeeds below
  have read := composed.get_eq_tileByte apart below
  obtain ⟨inPage, inRow⟩ := Lcd.column_div_mod page columnBelow
  rw [inPage, inRow, held] at read
  rw [composed.get_visible pageBelow columnBelow, held,
    get_tileOffset pageBelow columnBelow read.symm]

end Composed

/-- Working memory that already holds the byte of every column is left as it is. -/
theorem compose_of_settled
    (settled : ∀ n < Lcd.pages * Lcd.width, ∃ data, Cells.get ram.cells n = .ok data ∧
      controller.tileByte ram (n / Lcd.width) (n % Lcd.width) = .ok data) :
    ∃ planar, controller.compose ram = .ok (planar, ram) := by
  let unchanged (state : Array UInt8 × Ram) : Prop :=
    state.1.size = Lcd.pages * Lcd.stride ∧ state.2 = ram
  have composed : ∃ final, controller.compose ram = .ok final ∧ unchanged final := by
    rw [compose_eq_rounds]
    apply rounds_eq_ok unchanged _ ⟨Array.size_replicate, rfl⟩
    rintro n below ⟨planar, _⟩ ⟨sized, rfl⟩
    obtain ⟨data, held, read⟩ := settled n below
    obtain ⟨drawn, planarSet⟩ := Cells.set_succeeds data (sized ▸ Lcd.columnAt_lt below)
    have place : n % Ram.size = n := Nat.mod_eq_of_lt (below.trans (by decide))
    refine ⟨(drawn, _), ?_, (Cells.size_of_set planarSet).trans sized, rfl⟩
    dsimp only at read planarSet ⊢
    rw [composeColumn, read, ok_bind, Ram.write, place, Cells.set_of_get held, ok_bind, ok_bind,
      planarSet, ok_bind]
  obtain ⟨⟨planar, _⟩, done, -, rfl⟩ := composed
  exact ⟨planar, done⟩

/-- Where tiles lie apart, composing once more gives the same and changes nothing. -/
theorem Composed.compose_eq (composed : Composed controller start planar ram)
    (apart : TilesApart controller start) : controller.compose ram = .ok (planar, ram) := by
  have settled (n : Nat) (below : n < Lcd.pages * Lcd.width) :
      ∃ data, Cells.get ram.cells n = .ok data ∧
        controller.tileByte ram (n / Lcd.width) (n % Lcd.width) = .ok data := by
    obtain ⟨data, held⟩ := composed.get_succeeds below
    exact ⟨data, held, (composed.tileByte_eq apart below).trans held⟩
  obtain ⟨again, done⟩ := compose_of_settled settled
  rw [done, (composed_of_compose done).planar_eq composed]

/-- Composing succeeds on working memory of full size. It gives planar memory of 1056 bytes
that shows in each visible column the byte left in working memory for it, and is blank in
the hidden columns; from offset 0x300 on, working memory is as it was. If no tile lies
below that, each visible column shows the byte that was at its offset before, and composing
once more gives the same and changes nothing. -/
theorem compose_tiles (controller : RefreshController) (ram : Ram) :
    (0x1000 ≤ ram.cells.size → Succeeds (controller.compose ram)) ∧
    ∀ planar after, controller.compose ram = .ok (planar, after) →
      planar.size = 1056 ∧ after.cells.size = ram.cells.size ∧
      (∀ page < 8, ∀ column < 96,
        planar[page * 132 + column]? = after.cells[page * 96 + column]?) ∧
      (∀ page < 8, ∀ column < 132, 96 ≤ column → planar[page * 132 + column]? = some 0xFF) ∧
      (∀ i, 0x300 ≤ i → after.cells[i]? = ram.cells[i]?) ∧
      (TilesApart controller ram →
        (∀ page < 8, ∀ column < 96, planar[page * 132 + column]? =
          ram.cells[controller.tileOffset ram page column]?) ∧
        controller.compose after = .ok (planar, after)) := by
  refine ⟨controller.compose_succeeds, ?_⟩
  intro planar after done
  have composed := composed_of_compose done
  refine ⟨composed.planarSize, composed.ramSize, ?_, ?_, ?_, ?_⟩
  · intro page pageBelow column columnBelow
    exact Cells.getElem?_eq_of_get_eq (composed.get_visible pageBelow columnBelow)
  · intro page pageBelow column columnBelow hidden
    rw [← Cells.toOption_get]
    exact congrArg Except.toOption (composed.get_hidden pageBelow columnBelow hidden)
  · intro i beyond
    exact Cells.getElem?_eq_of_get_eq (composed.kept i beyond)
  · intro apart
    refine ⟨?_, composed.compose_eq apart⟩
    intro page pageBelow column columnBelow
    exact Cells.getElem?_eq_of_get_eq (composed.get_visible_of_apart apart pageBelow columnBelow)

end RefreshController

end Handheld
