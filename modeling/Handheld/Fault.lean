/-
# Faults

An operation of the model either has a result or runs into a fault: it asks for
a cell that a buffer does not have, or for a number that its word cannot hold.
Every access and every counter in the project goes through the functions of
this module, so that freedom from faults is a statement about `Except.ok`.
-/

namespace Handheld

/-- Why an operation has no result. -/
inductive Fault
  | outOfBounds
  | overflow
  deriving DecidableEq, Repr, Inhabited

/-- The result of an operation that may run into a fault. -/
abbrev Checked (α : Type) := Except Fault α

namespace Cells

variable {α : Type}

/-- The cell at `i`, which must exist. -/
@[inline]
def get (cells : Array α) (i : Nat) : Checked α :=
  if h : i < cells.size then .ok cells[i] else .error .outOfBounds

/-- Replace the cell at `i`, which must exist. -/
@[inline]
def set (cells : Array α) (i : Nat) (value : α) : Checked (Array α) :=
  if h : i < cells.size then .ok (cells.set i value) else .error .outOfBounds

theorem get_eq_ok {cells : Array α} {i : Nat} (h : i < cells.size) :
    get cells i = .ok cells[i] := by
  simp [get, h]

theorem get_eq_error {cells : Array α} {i : Nat} (h : cells.size ≤ i) :
    get cells i = .error .outOfBounds := by
  simp [get, Nat.not_lt.mpr h]

theorem set_eq_ok {cells : Array α} {i : Nat} (value : α) (h : i < cells.size) :
    set cells i value = .ok (cells.set i value) := by
  simp [set, h]

theorem set_eq_error {cells : Array α} {i : Nat} (value : α) (h : cells.size ≤ i) :
    set cells i value = .error .outOfBounds := by
  simp [set, Nat.not_lt.mpr h]

end Cells

namespace Checked

variable {β : Type}

/-- Run `body 0`, `body 1`, up to `body (n - 1)` in turn. The last round is
peeled first, so a fact about the first `n` rounds is an induction on `n`. -/
@[specialize]
def rounds (body : Nat → β → Checked β) (start : β) : Nat → Checked β
  | 0 => .ok start
  | n + 1 => do
    let state ← rounds body start n
    body n state

end Checked

/-- The sum of two 32 bit numbers, which must fit. A sum that does not fit
wraps to something below either summand. -/
@[inline]
def add32 (a b : UInt32) : Checked UInt32 :=
  if a ≤ a + b then .ok (a + b) else .error .overflow

/-- The sum of two 64 bit numbers, which must fit. A sum that does not fit
wraps to something below either summand. -/
@[inline]
def add64 (a b : UInt64) : Checked UInt64 :=
  if a ≤ a + b then .ok (a + b) else .error .overflow

theorem add32_eq_ok {a b : UInt32} (h : a.toNat + b.toNat < UInt32.size) :
    add32 a b = .ok (a + b) := by
  have : a ≤ a + b := by
    rw [UInt32.le_iff_toNat_le, UInt32.toNat_add, Nat.mod_eq_of_lt h]
    exact Nat.le_add_right ..
  simp [add32, this]

theorem add32_eq_error {a b : UInt32} (h : UInt32.size ≤ a.toNat + b.toNat) :
    add32 a b = .error .overflow := by
  have : ¬ a ≤ a + b := by
    have := a.toNat_lt
    have := b.toNat_lt
    rw [UInt32.le_iff_toNat_le, UInt32.toNat_add]
    simp only [UInt32.size] at h
    omega
  simp [add32, this]

theorem add64_eq_ok {a b : UInt64} (h : a.toNat + b.toNat < UInt64.size) :
    add64 a b = .ok (a + b) := by
  have : a ≤ a + b := by
    rw [UInt64.le_iff_toNat_le, UInt64.toNat_add, Nat.mod_eq_of_lt h]
    exact Nat.le_add_right ..
  simp [add64, this]

theorem add64_eq_error {a b : UInt64} (h : UInt64.size ≤ a.toNat + b.toNat) :
    add64 a b = .error .overflow := by
  have : ¬ a ≤ a + b := by
    have := a.toNat_lt
    have := b.toNat_lt
    rw [UInt64.le_iff_toNat_le, UInt64.toNat_add]
    simp only [UInt64.size] at h
    omega
  simp [add64, this]

end Handheld
