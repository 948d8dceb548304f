/-
# What the seconds counter reads after any operations

The count is a matter of the ticks that a register bank has been given, and of the control
byte under which each was made. A tick counts if a second has passed and the counter is
enabled. A tick with the reset bit set takes the count back to zero, its own second
included, so that only the ticks after the latest such one remain.

Three registers show the count, which is cut to 24 bits. It has room for one more in the
word that it is kept in, and the sum is formed before it is cut.
-/

import Mathlib.Data.List.DropRight
import Handheld.Proofs.Register.Writes

namespace Handheld

open Checked

namespace SecondsCounter

/-- A tick: whether a second has passed, and the control byte at the time. -/
structure Tick where
  onInterval : Bool
  control : UInt8

namespace Tick

/-- The tick counts, as the enable bit is set. -/
def counts (tick : Tick) : Bool :=
  tick.onInterval && tick.control.toNat.testBit 0

/-- The tick goes back to zero, as the reset bit is set. -/
def resets (tick : Tick) : Bool :=
  tick.control.toNat.testBit 1

end Tick

/-- The number of ticks that count since the latest one that went back to zero. -/
def secondsOf (ticks : List Tick) : Nat :=
  (ticks.rtakeWhile (!·.resets)).countP Tick.counts

theorem secondsOf_concat (ticks : List Tick) (tick : Tick) :
    secondsOf (ticks ++ [tick]) =
      if tick.resets then 0 else secondsOf ticks + if tick.counts then 1 else 0 := by
  rw [secondsOf, List.rtakeWhile_concat]
  cases tick.resets with
  | true => rfl
  | false => simp [secondsOf, List.countP_append, List.countP_singleton]

variable {counter changed : SecondsCounter} {onInterval : Bool}

/-- The two control bits, in a byte that has been cut to them. -/
theorem bits_of_control {data : UInt8} (control : counter.control = data &&& 0b11) :
    counter.isEnabled = data.toNat.testBit 0 ∧ counter.isHeld = data.toNat.testBit 1 := by
  have bit (mask : UInt8) (i : Nat) (isBit : mask.toNat = 2 ^ i) :
      (data &&& mask != 0) = data.toNat.testBit i := by
    have value : (data &&& mask).toNat = (data.toNat.testBit i).toNat * 2 ^ i := by
      rw [UInt8.toNat_and, isBit, Nat.and_two_pow]
    rw [Bool.eq_iff_iff, bne_iff_ne, ne_eq, ← UInt8.toNat_inj, value]
    cases data.toNat.testBit i <;> simp
  constructor
  · rw [isEnabled, control, UInt8.and_assoc]
    exact bit 0b01 0 rfl
  · rw [isHeld, control, UInt8.and_assoc]
    exact bit 0b10 1 rfl

/-- One tick, with the count as a remainder. -/
theorem count_of_tick_eq (small : counter.count.toNat < 2 ^ 24)
    (ticked : counter.tick onInterval = .ok changed) :
    changed.control = counter.control ∧
      changed.count.toNat =
        if counter.isHeld then 0
        else (counter.count.toNat + if onInterval && counter.isEnabled then 1 else 0) % 2 ^ 24 := by
  rw [tick_eq] at ticked
  obtain ⟨count, counted, rfl⟩ := of_map_eq_ok ticked
  refine ⟨rfl, ?_⟩
  have value : count.toNat =
      (counter.count.toNat + if onInterval && counter.isEnabled then 1 else 0) % 2 ^ 24 := by
    rw [Bool.and_comm]
    unfold SecondsCounter.counted at counted
    split at counted
    case isTrue counts =>
      obtain ⟨next, added, rfl⟩ := of_map_eq_ok counted
      rw [if_pos counts, UInt32.toNat_and, (of_add32_eq_ok added).2]
      exact Nat.and_two_pow_sub_one_eq_mod _ 24
    case isFalse idle =>
      cases counted
      rw [if_neg idle, Nat.add_zero, Nat.mod_eq_of_lt small]
  show (if counter.isHeld then 0 else count).toNat = _
  split
  · rfl
  · exact value

/-- The count is the seconds of the ticks, and so it stays. -/
theorem count_tick {ticks : List Tick} (count : counter.count.toNat = secondsOf ticks % 2 ^ 24)
    {data : UInt8} (control : counter.control = data &&& 0b11)
    (ticked : counter.tick onInterval = .ok changed) :
    changed.count.toNat = secondsOf (ticks ++ [⟨onInterval, data⟩]) % 2 ^ 24 := by
  obtain ⟨enabled, held⟩ := bits_of_control control
  have small : counter.count.toNat < 2 ^ 24 := by
    rw [count]
    exact Nat.mod_lt _ (by decide)
  rw [(count_of_tick_eq small ticked).2, secondsOf_concat, enabled, held, count, Tick.resets,
    Tick.counts]
  split
  · rfl
  · exact Nat.mod_add_mod ..

end SecondsCounter

namespace RegisterBank

/-- The three registers of the count spell a number, the least significant byte first. -/
def ShowsSeconds (bank : RegisterBank) (seconds : Nat) : Prop :=
  ∃ low middle high, bank.read 0x09 = .ok low ∧ bank.read 0x0A = .ok middle ∧
    bank.read 0x0B = .ok high ∧
    low.toNat + 2 ^ 8 * middle.toNat + 2 ^ 16 * high.toNat = seconds

theorem showsSeconds_of_count {bank : RegisterBank} {seconds : Nat}
    (count : bank.seconds.count.toNat = seconds % 2 ^ 24) :
    bank.ShowsSeconds (seconds % 2 ^ 24) := by
  refine ⟨_, _, _, rfl, rfl, rfl, ?_⟩
  have byte (index : Nat) (shift : (UInt32.ofNat (8 * min index 2)).toNat % 32 = 8 * index) :
      (bank.seconds.byte index).toNat = bank.seconds.count.toNat / 2 ^ (8 * index) % 2 ^ 8 := by
    rw [SecondsCounter.byte, UInt32.toNat_toUInt8, UInt32.toNat_shiftRight, shift,
      Nat.shiftRight_eq_div_pow]
  have small := Nat.mod_lt seconds (show 2 ^ 24 > 0 by decide)
  rw [byte 0 rfl, byte 1 rfl, byte 2 rfl, ← count]
  rw [← count] at small
  omega

namespace Operation

/-- The tick that an operation is, under the control byte written last. -/
def secondsTick (earlier : List Operation) : Operation → Option SecondsCounter.Tick
  | .tick onSeconds _ => some ⟨onSeconds, lastWritten earlier 0x08⟩
  | _ => none

/-- The seconds that operations have brought from power-on. -/
def secondsCounted (operations : List Operation) : Nat :=
  SecondsCounter.secondsOf (toldInTurn secondsTick operations)

end Operation

open Operation (secondsCounted)

variable {bank after : RegisterBank} {operation : Operation}

/-- Ticks move the count, and nothing else does. -/
theorem seconds_of_perform (done : bank.perform operation = .ok after) :
    (∃ onSeconds onRefresh, operation = .tick onSeconds onRefresh ∧
      bank.seconds.tick onSeconds = .ok after.seconds) ∨
    (∀ earlier, operation.secondsTick earlier = none) ∧
      after.seconds.count = bank.seconds.count := by
  cases operation with
  | write offset data =>
      obtain ⟨⟨report, _⟩, written, rfl⟩ := of_map_eq_ok done
      exact .inr ⟨fun _ => rfl, count_of_write written⟩
  | raise offset mask =>
      obtain ⟨⟨raised, _⟩, raising, rfl⟩ := of_map_eq_ok done
      obtain ⟨cells, -, rfl⟩ := of_raise raising
      exact .inr ⟨fun _ => rfl, rfl⟩
  | tick onSeconds onRefresh =>
      obtain ⟨⟨tick, _⟩, ticking, rfl⟩ := of_map_eq_ok done
      obtain ⟨counter, ticked, rfl, -⟩ := of_tick ticking
      exact .inl ⟨onSeconds, onRefresh, rfl, ticked⟩
  | setKeys keys =>
      cases done
      exact .inr ⟨fun _ => rfl, rfl⟩

/-- One operation. -/
theorem Follows.count_perform {earlier : List Operation} (follows : bank.Follows earlier)
    (count : bank.seconds.count.toNat = secondsCounted earlier % 2 ^ 24)
    (done : bank.perform operation = .ok after) :
    after.seconds.count.toNat = secondsCounted (earlier ++ [operation]) % 2 ^ 24 := by
  rw [secondsCounted, toldInTurn_concat]
  rcases seconds_of_perform done with ⟨onSeconds, onRefresh, rfl, ticked⟩ | ⟨silent, same⟩
  · exact SecondsCounter.count_tick count follows.control ticked
  · rw [silent, Option.toList_none, List.append_nil, same]
    exact count

/-- Every row of operations succeeds, and leaves the count of the seconds in it. -/
theorem performAll_seconds (operations : List Operation) :
    ∃ bank, initial.performAll operations = .ok bank ∧ bank.Follows operations ∧
      bank.seconds.count.toNat = secondsCounted operations % 2 ^ 24 :=
  performAll_keeps (fun operations bank =>
    bank.seconds.count.toNat = secondsCounted operations % 2 ^ 24) rfl
    (fun follows count done => follows.count_perform count done) operations

end RegisterBank

end Handheld
