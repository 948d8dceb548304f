/-
# What registers read after any operations

Writes, raised interrupts, ticks and key presses may come to a register bank in
any order. What most registers then read is a matter of the list of operations
alone: the byte of the last write, cut to the bits that a device keeps, or the
keys pressed last. Registers that cannot be written read zero for ever.

Some bytes are kept twice, in the bank and in a device. The tile base is read from
the bank and used from the device, and the two never come apart.

The seconds count, the interrupt latches and the refresh rate also change by
themselves, and are not described here.
-/

import Handheld.Proofs.Board.Progress

namespace Handheld

open Checked

/-- The last item of a longer row decides, if it has something to tell. -/
theorem getLastD_filterMap_concat {α β : Type} (tells : α → Option β) (otherwise : β)
    (earlier : List α) (last : α) :
    ((earlier ++ [last]).filterMap tells).getLastD otherwise =
      (tells last).getD ((earlier.filterMap tells).getLastD otherwise) := by
  rw [List.filterMap_append]
  cases told : tells last with
  | none =>
      rw [List.filterMap_cons_none told, List.filterMap_nil, List.append_nil]
      rfl
  | some value =>
      rw [List.filterMap_cons_some told, List.filterMap_nil, List.getLastD_concat]
      rfl

/-- What the items of a row tell in their turn, each in view of those before it. -/
def toldInTurn {α β : Type} (tells : List α → α → Option β) (row : List α) : List β :=
  (List.range row.length).filterMap fun i => row[i]?.bind (tells (row.take i))

theorem toldInTurn_concat {α β : Type} (tells : List α → α → Option β) (earlier : List α)
    (last : α) :
    toldInTurn tells (earlier ++ [last]) =
      toldInTurn tells earlier ++ (tells earlier last).toList := by
  unfold toldInTurn
  rw [List.length_append, List.length_singleton, List.range_succ, List.filterMap_append]
  congr 1
  · apply List.filterMap_congr
    intro i inside
    have before : i < earlier.length := List.mem_range.mp inside
    rw [List.take_append_of_le_length before.le, List.getElem?_append_left before]
  · rw [List.filterMap_cons, List.take_left, List.getElem?_concat_length, Option.bind_some]
    cases tells earlier last <;> rfl

namespace RegisterBank

/-- Something that is done with a register bank. -/
inductive Operation
  | write (offset data : UInt8)
  | raise (offset mask : UInt8)
  | tick (onSeconds onRefresh : Bool)
  | setKeys (keys : Keys)

/-- Carry out an operation. What it reports is left out. -/
def perform (bank : RegisterBank) : Operation → Checked RegisterBank
  | .write offset data => (bank.write offset data).map Prod.snd
  | .raise offset mask => (bank.raise offset mask).map Prod.snd
  | .tick onSeconds onRefresh => (bank.tick onSeconds onRefresh).map Prod.snd
  | .setKeys keys => .ok (bank.setKeys keys)

/-- Carry out operations, the first one first. -/
def performAll (bank : RegisterBank) (operations : List Operation) : Checked RegisterBank :=
  operations.foldlM perform bank

namespace Operation

/-- The byte that an operation writes at an offset. -/
def written (offset : UInt8) : Operation → Option UInt8
  | .write target data => if target = offset then some data else none
  | _ => none

/-- The keys that an operation presses. -/
def pressed : Operation → Option Keys
  | .setKeys keys => some keys
  | _ => none

/-- The byte last written at an offset, zero if there was none. -/
def lastWritten (operations : List Operation) (offset : UInt8) : UInt8 :=
  (operations.filterMap (written offset)).getLastD 0

/-- The keys pressed last. -/
def lastPressed (operations : List Operation) : Keys :=
  (operations.filterMap pressed).getLastD .none

variable (earlier : List Operation)

/-- As a memory, the bytes last written change at one place with every write. -/
theorem lastWritten_write (target data : UInt8) :
    lastWritten (earlier ++ [.write target data]) =
      Function.update (lastWritten earlier) target data := by
  funext offset
  rw [lastWritten, getLastD_filterMap_concat, written, Function.update_apply]
  by_cases here : target = offset
  · rw [if_pos here, if_pos here.symm]
    rfl
  · rw [if_neg here, if_neg (Ne.symm here)]
    rfl

theorem lastWritten_of_silent (operation : Operation)
    (silent : ∀ offset, operation.written offset = none) :
    lastWritten (earlier ++ [operation]) = lastWritten earlier := by
  funext offset
  rw [lastWritten, getLastD_filterMap_concat, silent]
  rfl

theorem lastPressed_concat (operation : Operation) :
    lastPressed (earlier ++ [operation]) = operation.pressed.getD (lastPressed earlier) :=
  getLastD_filterMap_concat _ _ _ _

end Operation

end RegisterBank

/-- The bits of a byte end with the eighth. -/
theorem testBit_byte_eq_false (byte : UInt8) {bit : Nat} (beyond : 8 ≤ bit) :
    byte.toNat.testBit bit = false :=
  Nat.testBit_lt_two_pow (byte.toNat_lt.trans_le (Nat.pow_le_pow_right Nat.two_pos beyond))

namespace RefreshController

/-- The tile base that a memory of register bytes spells, the least significant byte
first. -/
def tileBase (bytes : UInt8 → UInt8) : Nat :=
  (bytes 0x82).toNat + 2 ^ 8 * (bytes 0x83).toNat + 2 ^ 16 * (bytes 0x84).toNat

theorem testBit_tileBase (bytes : UInt8 → UInt8) (bit : Nat) :
    (tileBase bytes).testBit bit =
      if bit < 8 then (bytes 0x82).toNat.testBit bit
      else if bit < 16 then (bytes 0x83).toNat.testBit (bit - 8)
      else (bytes 0x84).toNat.testBit (bit - 16) := by
  have nested : tileBase bytes =
      2 ^ 8 * (2 ^ 8 * (bytes 0x84).toNat + (bytes 0x83).toNat) + (bytes 0x82).toNat := by
    unfold tileBase
    omega
  rw [nested, Nat.testBit_two_pow_mul_add _ (UInt8.toNat_lt _),
    Nat.testBit_two_pow_mul_add _ (UInt8.toNat_lt _)]
  split_ifs with first second third
  · rfl
  · rfl
  · omega
  · omega
  · rw [Nat.sub_sub]

/-- Bit by bit, one byte of the tile base is replaced and the others stay. -/
theorem testBit_setMapByte (controller : RefreshController) {index : Nat} (inside : index ≤ 2)
    (data : UInt8) (bit : Nat) :
    (controller.setMapByte index data).map.toNat.testBit bit =
      if 8 * index ≤ bit ∧ bit < 8 * index + 8 then data.toNat.testBit (bit - 8 * index)
      else controller.map.toNat.testBit bit := by
  have shift : (UInt32.ofNat (8 * min index 2)).toNat % 32 = 8 * index := by
    rw [Nat.min_eq_left inside, UInt32.toNat_ofNat']
    omega
  have window : ((0xFF : UInt32) <<< UInt32.ofNat (8 * min index 2)).toNat.testBit bit =
      decide (8 * index ≤ bit ∧ bit < 8 * index + 8) := by
    rw [UInt32.toNat_shiftLeft, shift, Nat.testBit_mod_two_pow, Nat.testBit_shiftLeft,
      show (0xFF : UInt32).toNat = 2 ^ 8 - 1 from rfl, Nat.testBit_two_pow_sub_one,
      ← Bool.decide_and, ← Bool.decide_and]
    congr 1
    apply propext
    omega
  have byte : (data.toUInt32 <<< UInt32.ofNat (8 * min index 2)).toNat.testBit bit =
      (decide (8 * index ≤ bit ∧ bit < 8 * index + 8) && data.toNat.testBit (bit - 8 * index)) := by
    rw [UInt32.toNat_shiftLeft, shift, Nat.testBit_mod_two_pow, Nat.testBit_shiftLeft,
      UInt8.toNat_toUInt32]
    by_cases within : bit - 8 * index < 8
    · rw [← Bool.and_assoc, ← Bool.decide_and]
      congr 2
      apply propext
      omega
    · rw [testBit_byte_eq_false data (Nat.not_lt.mp within)]
      simp only [Bool.and_false]
  have complement : (~~~((0xFF : UInt32) <<< UInt32.ofNat (8 * min index 2))).toNat =
      2 ^ 32 - (((0xFF : UInt32) <<< UInt32.ofNat (8 * min index 2)).toNat + 1) := by
    rw [UInt32.toNat_not, UInt32.size]
    omega
  have narrow : (controller.map.toNat.testBit bit && decide (bit < 32)) =
      controller.map.toNat.testBit bit := by
    by_cases inside : bit < 32
    · rw [decide_eq_true inside, Bool.and_true]
    · rw [Nat.testBit_lt_two_pow (controller.map.toNat_lt.trans_le
        (Nat.pow_le_pow_right Nat.two_pos (Nat.not_lt.mp inside))), Bool.false_and]
  rw [setMapByte, UInt32.toNat_or, UInt32.toNat_and, Nat.testBit_or, Nat.testBit_and, complement,
    Nat.testBit_two_pow_sub_succ (UInt32.toNat_lt _), window, byte, ← Bool.and_assoc, narrow]
  by_cases here : 8 * index ≤ bit ∧ bit < 8 * index + 8
  · simp only [here, decide_true, and_self, Bool.not_true, Bool.and_false, Bool.false_or,
      Bool.true_and, if_true]
  · simp only [here, decide_false, Bool.not_false, Bool.and_true, Bool.false_and, Bool.or_false,
      if_false]

end RefreshController

namespace Register

/-- Whether a register reads as the byte last written. -/
def Role.isVerbatim : Role → Bool
  | .mapByte _ | .lcdControl | .plain | .unknown => true
  | _ => false

/-- Whether nothing is ever stored. -/
def Role.isDead : Role → Bool
  | .cartridgeBus | .absent => true
  | _ => false

/-- The registers with a name whose reads are a device's business: the control and
the count of seconds, the interrupt latches, the key pad, the cartridge bus, and the
mode and the rate of the refresh controller. -/
def served : List UInt8 :=
  [0x08, 0x09, 0x0A, 0x0B, 0x27, 0x28, 0x29, 0x2A, 0x52, 0x53, 0x80, 0x81]

/-- Every other register with a name is verbatim, as is every one without a known
function. The cartridge bus and the registers that are neither are dead. -/
theorem role_class (offset : UInt8) :
    ((name? offset).isSome = true ∧ offset ∉ served ∨ isUnknown offset = true →
        (role offset).isVerbatim = true) ∧
      (offset = 0x53 ∨ name? offset = none ∧ isUnknown offset = false →
        (role offset).isDead = true) := by
  unfold role
  split
  case h_17 noBus _ _ _ _ _ _ =>
    have elsewhere : offset ≠ 0x53 := by
      intro same
      exact noBus (congrArg UInt8.toNat same)
    split
    · rename_i named
      simp [Role.isVerbatim, elsewhere, Option.isSome_iff_ne_none.mp named]
    · split
      · rename_i isUnknown
        simp [Role.isVerbatim, elsewhere, isUnknown]
      · rename_i unnamed isUnknown
        simp [Role.isDead, unnamed, isUnknown]
  all_goals
    rename_i value
    have same := offset.ofNat_toNat
    rw [value] at same
    subst same
    decide

/-- Where the registers are that a device has to itself. -/
def Role.IsAt (offset : UInt8) : Role → Prop
  | .secondsControl => offset = 0x08
  | .refreshMode => offset = 0x80
  | .refreshRate => offset = 0x81
  | .mapByte index => index ≤ 2 ∧ offset = UInt8.ofNat (0x82 + index)
  | _ => True

theorem role_isAt (offset : UInt8) : (role offset).IsAt offset := by
  unfold role
  split
  case h_17 =>
    split
    · trivial
    · split <;> trivial
  all_goals
    rename_i value
    simp [Role.IsAt, ← UInt8.toNat_inj, value]

theorem role_eq_secondsControl_iff (offset : UInt8) :
    role offset = .secondsControl ↔ offset = 0x08 := by
  constructor
  · intro isControl
    have found := role_isAt offset
    rwa [isControl] at found
  · rintro rfl
    rfl

theorem role_eq_refreshMode_iff (offset : UInt8) : role offset = .refreshMode ↔ offset = 0x80 := by
  constructor
  · intro isMode
    have found := role_isAt offset
    rwa [isMode] at found
  · rintro rfl
    rfl

end Register

namespace RefreshController

variable {controller : RefreshController} {bytes : UInt8 → UInt8} {target : UInt8}

/-- A write to one of the three registers reaches the tile base. -/
theorem map_setMapByte_eq (base : controller.map.toNat = tileBase bytes) {index : Nat}
    (isMap : Register.role target = .mapByte index) (data : UInt8) :
    (controller.setMapByte index data).map.toNat =
      tileBase (Function.update bytes target data) := by
  have found := Register.role_isAt target
  rw [isMap] at found
  obtain ⟨inside, rfl⟩ := found
  apply Nat.eq_of_testBit_eq
  intro bit
  rw [testBit_setMapByte controller inside, base, testBit_tileBase, testBit_tileBase]
  have cases : index = 0 ∨ index = 1 ∨ index = 2 := by omega
  rcases cases with rfl | rfl | rfl
  · grind [Function.update_apply]
  · grind [Function.update_apply]
  · grind [Function.update_apply, testBit_byte_eq_false]

/-- A write to any other register does not concern it. -/
theorem tileBase_update (elsewhere : ∀ index, Register.role target ≠ .mapByte index)
    (data : UInt8) : tileBase (Function.update bytes target data) = tileBase bytes := by
  have low : (0x82 : UInt8) ≠ target := fun same => elsewhere 0 (same ▸ rfl)
  have middle : (0x83 : UInt8) ≠ target := fun same => elsewhere 1 (same ▸ rfl)
  have high : (0x84 : UInt8) ≠ target := fun same => elsewhere 2 (same ▸ rfl)
  simp only [tileBase, Function.update_of_ne low, Function.update_of_ne middle,
    Function.update_of_ne high]

end RefreshController

/-! ## What one operation does to stored bytes and devices -/

namespace RegisterBank

variable {bank changed : RegisterBank} {target data offset : UInt8}

/-- A write leaves its byte at its offset, if it leaves one at all. -/
theorem get_of_write {report : RegisterWrite}
    (written : bank.write target data = .ok (report, changed)) (offset : UInt8) :
    Cells.get changed.cells offset.toNat =
      if target = offset then report.stored.elim (Cells.get bank.cells offset.toNat) .ok
      else Cells.get bank.cells offset.toNat := by
  obtain ⟨⟨applied, middle⟩, first, rest⟩ := bind_eq_ok.mp written
  obtain ⟨last, stored, same⟩ := bind_eq_ok.mp rest
  cases same
  have unchanged := cells_of_applyWrite first
  cases left : report.stored with
  | none =>
      rw [left] at stored
      cases stored
      rw [unchanged, Option.elim_none, ite_self]
  | some byte =>
      rw [left] at stored
      obtain ⟨cells, set, same⟩ := bind_eq_ok.mp stored
      cases same
      simp only [Cells.get_of_set set, unchanged, UInt8.toNat_inj, eq_comm (a := offset),
        Option.elim_some]

/-- What a write leaves in the bank, where its role alone decides that. -/
theorem stored_of_write {report : RegisterWrite}
    (written : bank.write target data = .ok (report, changed)) :
    ((Register.role target).isVerbatim = true → report.stored = some data) ∧
      ((Register.role target).isDead = true → report.stored = none) := by
  obtain ⟨applied, cells, first, -, -⟩ := of_write written
  unfold applyWrite at first
  cases role : Register.role target with
  | mapByte index | lcdControl | plain | unknown =>
      simp only [role] at first
      cases first
      exact ⟨fun _ => rfl, nofun⟩
  | cartridgeBus | absent =>
      simp only [role] at first
      cases first
      exact ⟨nofun, fun _ => rfl⟩
  | secondsControl | secondsByte index | interruptLatch | keyPad | refreshMode | refreshRate =>
      exact ⟨nofun, nofun⟩

/-- Each device hears of the writes to its own registers only. -/
theorem devices_of_write {report : RegisterWrite}
    (written : bank.write target data = .ok (report, changed)) :
    changed.seconds.control =
        (if Register.role target = .secondsControl then data &&& 0x03 else bank.seconds.control) ∧
      changed.refresh.mode =
        (if Register.role target = .refreshMode then data &&& 0x3F else bank.refresh.mode) ∧
      changed.refresh.map =
        (match Register.role target with
          | .mapByte index => (bank.refresh.setMapByte index data).map
          | _ => bank.refresh.map) ∧
      changed.keyPad = bank.keyPad := by
  obtain ⟨applied, cells, first, -, rfl⟩ := of_write written
  unfold applyWrite at first
  cases role : Register.role target with
  | interruptLatch =>
      simp only [role] at first
      obtain ⟨latched, -, same⟩ := bind_eq_ok.mp first
      cases same
      exact ⟨rfl, rfl, rfl, rfl⟩
  | refreshRate =>
      simp only [role] at first
      cases first
      obtain ⟨mode, -, map⟩ := bank.refresh.writeRate_keeps data
      exact ⟨rfl, mode, map, rfl⟩
  | secondsControl | secondsByte index | keyPad | cartridgeBus | refreshMode | mapByte index
  | lcdControl | plain | unknown | absent =>
      simp only [role] at first
      cases first
      exact ⟨rfl, rfl, rfl, rfl⟩

/-- Verbatim and dead registers are read from the bank. -/
theorem read_eq_get (bank : RegisterBank)
    (kept : (Register.role offset).isVerbatim = true ∨ (Register.role offset).isDead = true) :
    bank.read offset = Cells.get bank.cells offset.toNat := by
  unfold read
  cases role : Register.role offset with
  | interruptLatch | cartridgeBus | mapByte index | lcdControl | plain | unknown | absent => rfl
  | secondsControl | secondsByte index | keyPad | refreshMode | refreshRate =>
      rw [role] at kept
      rcases kept with kept | kept <;> cases kept

/-- Raising interrupts reaches the latches only. -/
theorem get_of_raise {mask : UInt8} {raised : Bool}
    (done : bank.raise target mask = .ok (raised, changed))
    (kept : (Register.role offset).isVerbatim = true ∨ (Register.role offset).isDead = true) :
    Cells.get changed.cells offset.toNat = Cells.get bank.cells offset.toNat := by
  unfold raise at done
  split at done
  · rename_i isLatch
    obtain ⟨latched, -, rest⟩ := bind_eq_ok.mp done
    obtain ⟨cells, set, same⟩ := bind_eq_ok.mp rest
    cases same
    have elsewhere : offset.toNat ≠ target.toNat := by
      intro same
      rw [UInt8.toNat.inj same, isLatch] at kept
      rcases kept with kept | kept <;> cases kept
    rw [Cells.get_of_set set, if_neg elsewhere]
  · cases done
    rfl

/-- Ticks leave alone what is not counted. -/
theorem devices_of_tick {onSeconds onRefresh : Bool} {tick : Option RefreshTick}
    (done : bank.tick onSeconds onRefresh = .ok (tick, changed)) :
    changed.cells = bank.cells ∧ changed.seconds.control = bank.seconds.control ∧
      changed.refresh.mode = bank.refresh.mode ∧ changed.refresh.map = bank.refresh.map ∧
      changed.keyPad = bank.keyPad := by
  obtain ⟨seconds, counted, rfl, -⟩ := of_tick done
  rw [SecondsCounter.tick_eq] at counted
  obtain ⟨count, -, rfl⟩ := of_map_eq_ok counted
  obtain ⟨mode, map⟩ := bank.refresh.tick_keeps
  cases onRefresh with
  | true => exact ⟨rfl, rfl, mode, map, rfl⟩
  | false => exact ⟨rfl, rfl, rfl, rfl, rfl⟩

/-! ## Banks and their histories -/

open Operation (lastWritten lastPressed)

/-- What a bank holds by what was done with it: the stored bytes of its verbatim and
its dead registers, and the devices as far as they keep what is written. -/
structure Follows (bank : RegisterBank) (operations : List Operation) : Prop where
  sized : bank.cells.size = size
  ranges : bank.InRange
  verbatim : ∀ offset, (Register.role offset).isVerbatim = true →
    Cells.get bank.cells offset.toNat = .ok (lastWritten operations offset)
  dead : ∀ offset, (Register.role offset).isDead = true → Cells.get bank.cells offset.toNat = .ok 0
  control : bank.seconds.control = lastWritten operations 0x08 &&& 0x03
  mode : bank.refresh.mode = lastWritten operations 0x80 &&& 0x3F
  map : bank.refresh.map.toNat = RefreshController.tileBase (lastWritten operations)
  keys : bank.keyPad.pressed = lastPressed operations

theorem follows_initial : initial.Follows [] where
  sized := Array.size_replicate
  ranges := inRange_initial
  verbatim offset _ := Cells.get_replicate offset.toNat_lt
  dead offset _ := Cells.get_replicate offset.toNat_lt
  control := rfl
  mode := rfl
  map := rfl
  keys := rfl

namespace Follows

variable {earlier : List Operation} (follows : bank.Follows earlier)
include follows

theorem write {report : RegisterWrite}
    (written : bank.write target data = .ok (report, changed)) :
    changed.Follows (earlier ++ [.write target data]) := by
  obtain ⟨control, mode, map, keyPad⟩ := devices_of_write written
  obtain ⟨whenVerbatim, whenDead⟩ := stored_of_write written
  obtain ⟨applied, cells, -, cellsSized, same⟩ := of_write written
  have writes := Operation.lastWritten_write earlier target data
  constructor
  · rw [same]
    exact cellsSized.trans follows.sized
  · exact follows.ranges.write written
  · intro offset isVerbatim
    rw [get_of_write written, writes, follows.verbatim offset isVerbatim]
    by_cases here : target = offset
    · subst here
      rw [if_pos rfl, whenVerbatim isVerbatim, Function.update_self]
      rfl
    · rw [if_neg here, Function.update_of_ne (Ne.symm here)]
  · intro offset isDead
    rw [get_of_write written, follows.dead offset isDead]
    by_cases here : target = offset
    · subst here
      rw [whenDead isDead, Option.elim_none, ite_self]
    · rw [if_neg here]
  · simp only [control, Register.role_eq_secondsControl_iff, writes, Function.update_apply,
      eq_comm (b := target)]
    split
    · rfl
    · exact follows.control
  · simp only [mode, Register.role_eq_refreshMode_iff, writes, Function.update_apply,
      eq_comm (b := target)]
    split
    · rfl
    · exact follows.mode
  · rw [map, writes]
    split
    · rename_i index isMap
      exact RefreshController.map_setMapByte_eq follows.map isMap data
    · rename_i noMap
      rw [RefreshController.tileBase_update noMap]
      exact follows.map
  · rw [keyPad, Operation.lastPressed_concat]
    exact follows.keys

theorem raise {mask : UInt8} {raised : Bool}
    (done : bank.raise target mask = .ok (raised, changed)) :
    changed.Follows (earlier ++ [.raise target mask]) := by
  have silent := Operation.lastWritten_of_silent earlier (.raise target mask) fun _ => rfl
  have verbatim offset (isVerbatim : (Register.role offset).isVerbatim = true) :=
    (get_of_raise done (.inl isVerbatim)).trans (follows.verbatim offset isVerbatim)
  have dead offset (isDead : (Register.role offset).isDead = true) :=
    (get_of_raise done (.inr isDead)).trans (follows.dead offset isDead)
  obtain ⟨cells, cellsSized, rfl⟩ := of_raise done
  exact
    { follows with
      sized := cellsSized.trans follows.sized
      ranges := { follows.ranges with }
      verbatim := silent ▸ verbatim
      dead
      control := silent ▸ follows.control
      mode := silent ▸ follows.mode
      map := silent ▸ follows.map
      keys := follows.keys.trans (Operation.lastPressed_concat earlier (.raise target mask)).symm }

theorem tick {onSeconds onRefresh : Bool} {tick : Option RefreshTick}
    (done : bank.tick onSeconds onRefresh = .ok (tick, changed)) :
    changed.Follows (earlier ++ [.tick onSeconds onRefresh]) := by
  obtain ⟨cells, control, mode, map, keyPad⟩ := devices_of_tick done
  have silent := Operation.lastWritten_of_silent earlier (.tick onSeconds onRefresh) fun _ => rfl
  constructor
  · rw [cells, follows.sized]
  · exact follows.ranges.tick done
  · rw [cells, silent]
    exact follows.verbatim
  · rw [cells]
    exact follows.dead
  · rw [control, silent, follows.control]
  · rw [mode, silent, follows.mode]
  · rw [map, silent, follows.map]
  · rw [keyPad, Operation.lastPressed_concat]
    exact follows.keys

theorem setKeys (keys : Keys) : (bank.setKeys keys).Follows (earlier ++ [.setKeys keys]) := by
  have silent := Operation.lastWritten_of_silent earlier (.setKeys keys) fun _ => rfl
  exact
    { follows with
      ranges := { follows.ranges with }
      verbatim := silent ▸ follows.verbatim
      control := silent ▸ follows.control
      mode := silent ▸ follows.mode
      map := silent ▸ follows.map
      keys := (Operation.lastPressed_concat earlier (.setKeys keys)).symm }

/-- Every operation succeeds and is followed. -/
theorem perform (operation : Operation) :
    ∃ after, bank.perform operation = .ok after ∧ after.Follows (earlier ++ [operation]) := by
  cases operation with
  | write offset data =>
      obtain ⟨⟨report, after⟩, done⟩ := write_succeeds follows.sized.ge offset data
      exact ⟨after, congrArg (Except.map Prod.snd) done, follows.write done⟩
  | raise offset mask =>
      obtain ⟨⟨raised, after⟩, done⟩ := raise_succeeds follows.sized.ge offset mask
      exact ⟨after, congrArg (Except.map Prod.snd) done, follows.raise done⟩
  | tick onSeconds onRefresh =>
      obtain ⟨⟨tick, after⟩, done⟩ := follows.ranges.tick_succeeds onSeconds onRefresh
      exact ⟨after, congrArg (Except.map Prod.snd) done, follows.tick done⟩
  | setKeys keys => exact ⟨bank.setKeys keys, rfl, follows.setKeys keys⟩

theorem read_verbatim (isVerbatim : (Register.role offset).isVerbatim = true) :
    bank.read offset = .ok (lastWritten earlier offset) := by
  rw [read_eq_get bank (.inl isVerbatim)]
  exact follows.verbatim offset isVerbatim

theorem read_dead (isDead : (Register.role offset).isDead = true) : bank.read offset = .ok 0 := by
  rw [read_eq_get bank (.inr isDead)]
  exact follows.dead offset isDead

end Follows

/-- Every row of operations succeeds and is followed, and what each operation preserves
holds in the end. -/
theorem performAll_keeps (Holds : List Operation → RegisterBank → Prop) (start : Holds [] initial)
    (step : ∀ {earlier : List Operation} {bank after : RegisterBank} {operation : Operation},
      bank.Follows earlier → Holds earlier bank → bank.perform operation = .ok after →
        Holds (earlier ++ [operation]) after)
    (operations : List Operation) :
    ∃ bank, initial.performAll operations = .ok bank ∧ bank.Follows operations ∧
      Holds operations bank := by
  induction operations using List.reverseRecOn with
  | nil => exact ⟨initial, rfl, follows_initial, start⟩
  | append_singleton earlier operation ih =>
      obtain ⟨middle, before, follows, held⟩ := ih
      obtain ⟨after, last, stillFollows⟩ := follows.perform operation
      refine ⟨after, ?_, stillFollows, step follows held last⟩
      unfold performAll at before ⊢
      rw [List.foldlM_append, before]
      simp [last]

theorem performAll_follows (operations : List Operation) :
    ∃ bank, initial.performAll operations = .ok bank ∧ bank.Follows operations := by
  obtain ⟨bank, performed, follows, -⟩ :=
    performAll_keeps (fun _ _ => True) trivial (fun _ _ _ => trivial) operations
  exact ⟨bank, performed, follows⟩

/-- From power-on any operations in any order succeed, and then the registers read as
the operations say: what a device keeps of the last byte, the complement of the keys
pressed last, the last byte itself, or zero. The tile base in use is the one that its
three registers read. -/
theorem reads_of_operations (operations : List Operation) :
    ∃ bank, initial.performAll operations = .ok bank ∧
      bank.read 0x08 = .ok (lastWritten operations 0x08 &&& 0x03) ∧
      bank.read 0x80 = .ok (lastWritten operations 0x80 &&& 0x3F) ∧
      bank.read 0x52 = .ok (~~~(lastPressed operations).bits) ∧
      (∀ offset, ((Register.name? offset).isSome = true ∧ offset ∉ Register.served) ∨
          Register.isUnknown offset = true →
        bank.read offset = .ok (lastWritten operations offset)) ∧
      (∀ offset, offset = 0x53 ∨
          (Register.name? offset = none ∧ Register.isUnknown offset = false) →
        bank.read offset = .ok 0) ∧
      ∃ low middle high : UInt8, bank.read 0x82 = .ok low ∧ bank.read 0x83 = .ok middle ∧
        bank.read 0x84 = .ok high ∧
        bank.refresh.map.toNat = low.toNat + 2 ^ 8 * middle.toNat + 2 ^ 16 * high.toNat := by
  obtain ⟨bank, performed, follows⟩ := performAll_follows operations
  refine ⟨bank, performed, congrArg Except.ok follows.control, congrArg Except.ok follows.mode,
    congrArg (fun keys => Except.ok (KeyPad.latch ⟨keys⟩)) follows.keys, ?_, ?_,
    lastWritten operations 0x82, lastWritten operations 0x83, lastWritten operations 0x84,
    follows.read_verbatim rfl, follows.read_verbatim rfl, follows.read_verbatim rfl, follows.map⟩
  · intro offset plain
    exact follows.read_verbatim ((Register.role_class offset).1 plain)
  · intro offset dead
    exact follows.read_dead ((Register.role_class offset).2 dead)

end RegisterBank

end Handheld
