/-
# Taking runs apart

A successful computation of the model is a chain of successful parts. The lemmas
of this module read such a chain from the front, and say what the primitive
accesses leave as it was. When an access succeeds is stated beside the accesses
themselves.
-/

import Handheld.Bitmap

namespace Handheld

namespace Checked

variable {ε α β : Type}

/-- A chain succeeds exactly when its first part does and its rest does from there. -/
theorem bind_eq_ok {first : Except ε α} {rest : α → Except ε β} {result : β} :
    (first >>= rest) = .ok result ↔ ∃ value, first = .ok value ∧ rest value = .ok result := by
  cases first with
  | error failure => exact ⟨nofun, nofun⟩
  | ok value =>
      constructor
      · intro succeeds
        exact ⟨value, rfl, succeeds⟩
      · rintro ⟨_, same, succeeds⟩
        cases same
        exact succeeds

/-- A mapped computation succeeds with the image of a result. -/
theorem of_map_eq_ok {first : Except ε α} {f : α → β} {result : β}
    (mapped : first.map f = .ok result) : ∃ value, first = .ok value ∧ f value = result := by
  cases first with
  | error failure => cases mapped
  | ok value => exact ⟨value, rfl, Except.ok.inj mapped⟩

theorem map_chain {γ : Type} (first : Except ε α) (rest : α → Except ε β) (f : β → γ) :
    (first >>= rest).map f = first >>= fun value => (rest value).map f := by
  cases first <;> rfl

theorem chain_map {γ : Type} (first : Except ε α) (f : α → β) (rest : β → Except ε γ) :
    (first.map f >>= rest) = first >>= fun value => rest (f value) := by
  cases first <;> rfl

/-- A chain fails in no way in which none of its parts does. -/
theorem bind_ne_error {first : Except ε α} {rest : α → Except ε β} {failure : ε}
    (firstNever : first ≠ .error failure)
    (restNever : ∀ value, first = .ok value → rest value ≠ .error failure) :
    (first >>= rest) ≠ .error failure := by
  cases first with
  | ok value => exact restNever value rfl
  | error other =>
      intro failed
      cases failed
      exact firstNever rfl

@[simp]
theorem ok_bind (value : α) (rest : α → Except ε β) : (.ok value >>= rest) = rest value :=
  rfl

/-- The computation has a result. -/
def Succeeds (computation : Except ε α) : Prop :=
  ∃ value, computation = .ok value

namespace Succeeds

variable {first : Except ε α}

theorem ok (value : α) : Succeeds (.ok value : Except ε α) :=
  ⟨value, rfl⟩

/-- A chain succeeds when its first part does, and its rest does from every result
that the first part can have. -/
theorem bind {rest : α → Except ε β} (succeeds : Succeeds first)
    (restSucceeds : ∀ value, first = .ok value → Succeeds (rest value)) :
    Succeeds (first >>= rest) := by
  obtain ⟨value, done⟩ := succeeds
  obtain ⟨result, restDone⟩ := restSucceeds value done
  exact ⟨result, bind_eq_ok.mpr ⟨value, done, restDone⟩⟩

theorem map (succeeds : Succeeds first) (f : α → β) : Succeeds (first.map f) := by
  obtain ⟨value, rfl⟩ := succeeds
  exact ⟨f value, rfl⟩

theorem ne_error (succeeds : Succeeds first) (failure : ε) : first ≠ .error failure := by
  obtain ⟨value, rfl⟩ := succeeds
  exact nofun

end Succeeds

/-- Two computations run alike when they fail in the same way, or both succeed
with related results. -/
inductive Alike {γ : Type} (related : α → γ → Prop) : Except ε α → Except ε γ → Prop
  | ok {first : α} {second : γ} : related first second → Alike related (.ok first) (.ok second)
  | error (failure : ε) : Alike related (.error failure) (.error failure)

namespace Alike

variable {γ δ : Type} {first : Except ε α} {second : Except ε γ} {related : α → γ → Prop}

/-- Chains run alike when their first parts do, and their rests do from related
results. -/
theorem bind {firstRest : α → Except ε β} {secondRest : γ → Except ε δ} {final : β → δ → Prop}
    (alike : Alike related first second)
    (rest : ∀ a c, related a c → Alike final (firstRest a) (secondRest c)) :
    Alike final (first >>= firstRest) (second >>= secondRest) := by
  cases alike with
  | ok together => exact rest _ _ together
  | error failure => exact .error failure

/-- A computation runs like itself. -/
theorem refl (computation : Except ε α) : Alike Eq computation computation := by
  cases computation with
  | error failure => exact .error failure
  | ok value => exact .ok rfl

/-- Computations that run alike also do so for a weaker relation. -/
theorem imp {weaker : α → γ → Prop} (alike : Alike related first second)
    (weaken : ∀ a c, related a c → weaker a c) : Alike weaker first second := by
  cases alike with
  | ok together => exact .ok (weaken _ _ together)
  | error failure => exact .error failure

/-- What runs like a success is one. -/
theorem of_ok {a : α} (alike : Alike related first second) (succeeds : first = .ok a) :
    ∃ c, second = .ok c ∧ related a c := by
  cases alike with
  | ok together =>
      cases succeeds
      exact ⟨_, rfl, together⟩
  | error failure => cases succeeds

/-- Running alike up to two views means that the views of the results agree. -/
theorem map_eq {view : α → δ} {otherView : γ → δ}
    (alike : Alike (fun a c => view a = otherView c) first second) :
    first.map view = second.map otherView := by
  cases alike with
  | ok same => exact congrArg Except.ok same
  | error failure => rfl

theorem of_map_eq {view : α → δ} {otherView : γ → δ}
    (same : first.map view = second.map otherView) :
    Alike (fun a c => view a = otherView c) first second := by
  cases first with
  | ok value =>
      obtain ⟨other, rfl, sameView⟩ := of_map_eq_ok same.symm
      exact .ok sameView.symm
  | error failure =>
      cases second with
      | ok other => cases same
      | error _ =>
          cases same
          exact .error failure

end Alike

/-- Whenever both computations succeed, their results are related. -/
structure Agree {γ : Type} (related : α → γ → Prop) (first : Except ε α) (second : Except ε γ) :
    Prop where
  of_ok : ∀ a c, first = .ok a → second = .ok c → related a c

namespace Agree

variable {γ δ : Type} {first : Except ε α} {second : Except ε γ} {related : α → γ → Prop}

theorem ok {a : α} {c : γ} (together : related a c) :
    Agree related (.ok a : Except ε α) (.ok c : Except ε γ) := by
  constructor
  intro _ _ same otherSame
  cases same
  cases otherSame
  exact together

/-- A computation has one result, so it agrees with itself as far as results are
related to themselves. -/
theorem refl {related : α → α → Prop} (reflexive : ∀ a, related a a) (computation : Except ε α) :
    Agree related computation computation := by
  constructor
  intro a c succeeds again
  cases Except.ok.inj (succeeds.symm.trans again)
  exact reflexive a

/-- Chains agree when their first parts do, and their rests do from related results. -/
theorem bind {firstRest : α → Except ε β} {secondRest : γ → Except ε δ} {final : β → δ → Prop}
    (agree : Agree related first second)
    (rest : ∀ a c, related a c → Agree final (firstRest a) (secondRest c)) :
    Agree final (first >>= firstRest) (second >>= secondRest) := by
  constructor
  intro b d chained otherChained
  obtain ⟨a, done, last⟩ := bind_eq_ok.mp chained
  obtain ⟨c, otherDone, otherLast⟩ := bind_eq_ok.mp otherChained
  exact (rest a c (agree.of_ok a c done otherDone)).of_ok b d last otherLast

end Agree

/-! ## Comparisons -/

/-- A way of comparing computations by their results. A computation compares with itself
by equality, chains compare link by link, and what is compared are results of the two
computations and nothing else. -/
structure Comparison (ε : Type) where
  Holds : ∀ {α γ : Type}, (α → γ → Prop) → Except ε α → Except ε γ → Prop
  ok : ∀ {α γ : Type} {related : α → γ → Prop} {a : α} {c : γ},
    related a c → Holds related (.ok a) (.ok c)
  refl : ∀ {α : Type} (computation : Except ε α), Holds Eq computation computation
  bind : ∀ {α β γ δ : Type} {related : α → γ → Prop} {final : β → δ → Prop}
    {first : Except ε α} {second : Except ε γ} {firstRest : α → Except ε β}
    {secondRest : γ → Except ε δ},
    Holds related first second → (∀ a c, related a c → Holds final (firstRest a) (secondRest c)) →
      Holds final (first >>= firstRest) (second >>= secondRest)
  traced : ∀ {α γ : Type} {related : α → γ → Prop} {first : Except ε α} {second : Except ε γ},
    Holds related first second →
      Holds (fun a c => related a c ∧ first = .ok a ∧ second = .ok c) first second

namespace Comparison

variable {γ δ : Type} {first : Except ε α} {second : Except ε γ} {related : α → γ → Prop}

/-- Compare where both computations succeed. -/
@[reducible]
def agree : Comparison ε where
  Holds := Agree
  ok := Agree.ok
  refl := Agree.refl Eq.refl
  bind := Agree.bind
  traced agree := ⟨fun a c done otherDone => ⟨agree.of_ok a c done otherDone, done, otherDone⟩⟩

/-- Compare failures as well, which have to be the same. -/
@[reducible]
def alike : Comparison ε where
  Holds := Alike
  ok := Alike.ok
  refl := Alike.refl
  bind := Alike.bind
  traced
    | .ok together => .ok ⟨together, rfl, rfl⟩
    | .error failure => .error failure

variable (comparison : Comparison ε)

theorem imp {weaker : α → γ → Prop} (compared : comparison.Holds related first second)
    (weaken : ∀ a c, related a c → weaker a c) : comparison.Holds weaker first second := by
  have chained := comparison.bind compared fun a c together => comparison.ok (weaken a c together)
  have alone {β : Type} (computation : Except ε β) : (computation >>= Except.ok) = computation := by
    cases computation <;> rfl
  rwa [alone, alone] at chained

theorem map {f : α → β} {g : γ → δ} {final : β → δ → Prop}
    (compared : comparison.Holds related first second)
    (mapped : ∀ a c, related a c → final (f a) (g c)) :
    comparison.Holds final (first.map f) (second.map g) := by
  have chained := comparison.bind compared fun a c together => comparison.ok (mapped a c together)
  have last {β η : Type} (computation : Except ε β) (f : β → η) :
      (computation >>= fun value => .ok (f value)) = computation.map f := by
    cases computation <;> rfl
  rwa [last, last] at chained

theorem bind_same {computation : Except ε α} {firstRest : α → Except ε β}
    {secondRest : α → Except ε δ} {final : β → δ → Prop}
    (rest : ∀ a, comparison.Holds final (firstRest a) (secondRest a)) :
    comparison.Holds final (computation >>= firstRest) (computation >>= secondRest) := by
  apply comparison.bind (comparison.refl computation)
  rintro a _ rfl
  exact rest a

theorem map_same {computation : Except ε α} {f : α → β} {g : α → δ} {final : β → δ → Prop}
    (mapped : ∀ a, final (f a) (g a)) :
    comparison.Holds final (computation.map f) (computation.map g) := by
  apply comparison.map (comparison.refl computation)
  rintro a _ rfl
  exact mapped a

end Comparison

section

variable {δ : Type} {computation : Except ε α}

/-- Chains with the same first part agree when their rests do. -/
theorem Agree.bind_same {firstRest : α → Except ε β} {secondRest : α → Except ε δ}
    {final : β → δ → Prop} (rest : ∀ a, Agree final (firstRest a) (secondRest a)) :
    Agree final (computation >>= firstRest) (computation >>= secondRest) :=
  Comparison.agree.bind_same rest

/-- Chains with the same first part run alike when their rests do. -/
theorem Alike.bind_same {firstRest : α → Except ε β} {secondRest : α → Except ε δ}
    {final : β → δ → Prop} (rest : ∀ a, Alike final (firstRest a) (secondRest a)) :
    Alike final (computation >>= firstRest) (computation >>= secondRest) :=
  Comparison.alike.bind_same rest

end

/-! ## Rounds -/

/-- What every round keeps, all rounds keep. -/
theorem rounds_invariant {body : Nat → β → Checked β} (holds : β → Prop)
    (keeps : ∀ round before after, holds before → body round before = .ok after → holds after)
    {start final : β} {count : Nat} (atStart : holds start)
    (ran : rounds body start count = .ok final) : holds final := by
  induction count generalizing final with
  | zero =>
      cases ran
      exact atStart
  | succ count ih =>
      obtain ⟨state, before, last⟩ := bind_eq_ok.mp ran
      exact keeps count state final (ih before) last

theorem rounds_ne_error {body : Nat → β → Checked β} {failure : Fault} {count : Nat}
    (never : ∀ round < count, ∀ state, body round state ≠ .error failure) (start : β) :
    rounds body start count ≠ .error failure := by
  induction count with
  | zero => exact nofun
  | succ count ih =>
      exact bind_ne_error (ih fun round below => never round (Nat.lt_succ_of_lt below))
        fun state _ => never count (Nat.lt_succ_self count) state

/-- If every round succeeds where something holds, and keeps it, then all rounds
succeed. -/
theorem rounds_eq_ok {body : Nat → β → Checked β} (holds : β → Prop) {count : Nat}
    (succeeds : ∀ round < count, ∀ before, holds before →
      ∃ after, body round before = .ok after ∧ holds after)
    {start : β} (atStart : holds start) :
    ∃ final, rounds body start count = .ok final ∧ holds final := by
  induction count with
  | zero => exact ⟨start, rfl, atStart⟩
  | succ count ih =>
      obtain ⟨state, before, held⟩ := ih fun round below => succeeds round (Nat.lt_succ_of_lt below)
      obtain ⟨final, last, stillHeld⟩ := succeeds count (Nat.lt_succ_self count) state held
      exact ⟨final, bind_eq_ok.mpr ⟨state, before, last⟩, stillHeld⟩

/-- Rounds that do the same one by one do the same together. -/
theorem rounds_congr {body other : Nat → β → Checked β} {count : Nat}
    (same : ∀ round < count, body round = other round) (start : β) :
    rounds body start count = rounds other start count := by
  induction count with
  | zero => rfl
  | succ count ih =>
      rw [rounds, rounds, ih fun round below => same round (Nat.lt_succ_of_lt below),
        same count (Nat.lt_succ_self count)]

/-- Rounds that carry a value along, which is known from the number of the round, do what
they do without it. -/
theorem rounds_carrying {γ : Type} {body : Nat → β → Checked β}
    {carrying : Nat → β × γ → Checked (β × γ)} (carried : Nat → γ) {count : Nat}
    (each : ∀ round < count, ∀ state, carrying round (state, carried round) =
      (body round state).map fun after => (after, carried (round + 1))) (start : β) :
    rounds carrying (start, carried 0) count =
      (rounds body start count).map fun final => (final, carried count) := by
  induction count with
  | zero => rfl
  | succ count ih =>
      rw [rounds, rounds, ih fun round below => each round (Nat.lt_succ_of_lt below), chain_map,
        map_chain]
      congr 1
      funext state
      exact each count (Nat.lt_succ_self count) state

theorem rounds_add (body : Nat → β → Checked β) (start : β) (m n : Nat) :
    rounds body start (m + n) =
      rounds body start m >>= fun state => rounds (fun round => body (m + round)) state n := by
  induction n with
  | zero =>
      rw [Nat.add_zero]
      cases rounds body start m <;> rfl
  | succ n ih =>
      rw [← Nat.add_assoc, rounds, ih]
      cases rounds body start m <;> rfl

/-- A loop inside a loop is one loop, which goes through the inner rounds of one outer
round after the other. -/
theorem rounds_rounds (body : Nat → Nat → β → Checked β) (start : β) {width : Nat}
    (wide : 0 < width) (count : Nat) :
    rounds (fun outer state => rounds (body outer) state width) start count =
      rounds (fun round => body (round / width) (round % width)) start (count * width) := by
  induction count with
  | zero =>
      rw [Nat.zero_mul]
      rfl
  | succ count ih =>
      have row : ∀ round < width, body count round =
          body ((count * width + round) / width) ((count * width + round) % width) := by
        intro round below
        rw [Nat.mul_comm, Nat.mul_add_div wide, Nat.div_eq_of_lt below, Nat.add_zero,
          Nat.mul_add_mod, Nat.mod_eq_of_lt below]
      rw [rounds, ih, Nat.succ_mul, rounds_add _ _ (count * width)]
      congr 1
      funext state
      exact rounds_congr row state

end Checked

namespace Cells

variable {α : Type} {cells changed : Array α} {i : Nat} {value : α}

/-- A cell that could be read exists, and its byte is what was read. -/
theorem of_get_eq_ok (read : get cells i = .ok value) :
    ∃ exists_cell : i < cells.size, cells[i] = value := by
  unfold get at read
  split at read
  · rename_i inside
    cases read
    exact ⟨inside, rfl⟩
  · cases read

/-- Reading is the look-up that gives nothing where there is no cell. -/
theorem toOption_get (cells : Array α) (i : Nat) : (get cells i).toOption = cells[i]? := by
  unfold get
  split
  · rename_i inside
    exact (Array.getElem?_eq_getElem inside).symm
  · rename_i outside
    exact (Array.getElem?_eq_none (Nat.not_lt.mp outside)).symm

theorem getElem?_eq_of_get_eq {other : Array α} {j : Nat} (same : get cells i = get other j) :
    cells[i]? = other[j]? := by
  rw [← toOption_get, ← toOption_get, same]

theorem get_replicate {n : Nat} (inside : i < n) : get (.replicate n value) i = .ok value := by
  have room : i < (Array.replicate n value).size := by rwa [Array.size_replicate]
  rw [get_eq_ok room, Array.getElem_replicate]

theorem set_ne_overflow (cells : Array α) (i : Nat) (value : α) :
    set cells i value ≠ .error .overflow := by
  unfold set
  split
  · exact nofun
  · exact nofun

/-- A cell that could be replaced exists, and only it was replaced. -/
theorem of_set_eq_ok (written : set cells i value = .ok changed) :
    ∃ exists_cell : i < cells.size, changed = cells.set i value := by
  unfold set at written
  split at written
  · rename_i inside
    cases written
    exact ⟨inside, rfl⟩
  · cases written

/-- After a write the cell has its new content, and every other cell its old one. -/
theorem get_of_set (written : set cells i value = .ok changed) (j : Nat) :
    get changed j = if j = i then .ok value else get cells j := by
  obtain ⟨inside, rfl⟩ := of_set_eq_ok written
  by_cases same : j = i
  · subst same
    have stillInside : j < (cells.set j value).size := by rwa [Array.size_set]
    rw [get_eq_ok stillInside, if_pos rfl, Array.getElem_set_self]
  · simp only [get, Array.size_set, if_neg same]
    split
    · rename_i otherInside
      rw [Array.getElem_set_ne inside otherInside (Ne.symm same)]
    · rfl

/-- Writing what a cell holds changes nothing. -/
theorem set_of_get (held : get cells i = .ok value) : set cells i value = .ok cells := by
  obtain ⟨inside, rfl⟩ := of_get_eq_ok held
  rw [set_eq_ok _ inside, Array.set_getElem_self]

/-- Writing never changes the number of cells. -/
theorem size_of_set (written : set cells i value = .ok changed) :
    changed.size = cells.size := by
  obtain ⟨_, rfl⟩ := of_set_eq_ok written
  exact Array.size_set ..

end Cells

namespace Bitmap

variable {words changed : Array UInt64} {i : Nat}

theorem of_insert_eq_ok (inserted : insert words i = .ok changed) :
    ∃ room : i / 64 < words.size,
      changed = words.set (i / 64) (words[i / 64] ||| bit i) := by
  unfold insert at inserted
  split at inserted
  · rename_i room
    cases inserted
    exact ⟨room, rfl⟩
  · cases inserted

theorem size_of_insert (inserted : insert words i = .ok changed) :
    changed.size = words.size := by
  obtain ⟨_, rfl⟩ := of_insert_eq_ok inserted
  exact Array.size_set ..

end Bitmap

/-- Counting on never counts more than one. -/
theorem toNat_add_one_le (count : UInt64) : (count + 1).toNat ≤ count.toNat + 1 := by
  rw [UInt64.toNat_add]
  exact Nat.mod_le _ _

theorem add64_ne_outOfBounds (a b : UInt64) : add64 a b ≠ .error .outOfBounds := by
  unfold add64
  split
  · exact nofun
  · exact nofun

/-- A 64 bit sum that succeeded is the sum of the numbers. -/
theorem of_add64_eq_ok {a b sum : UInt64} (added : add64 a b = .ok sum) :
    sum = a + b ∧ sum.toNat = a.toNat + b.toNat := by
  by_cases fits : a.toNat + b.toNat < UInt64.size
  · rw [add64_eq_ok fits] at added
    cases added
    exact ⟨rfl, by rw [UInt64.toNat_add, Nat.mod_eq_of_lt fits]⟩
  · rw [add64_eq_error (Nat.not_lt.mp fits)] at added
    cases added

/-- A 32 bit sum that succeeded is the sum of the numbers. -/
theorem of_add32_eq_ok {a b sum : UInt32} (added : add32 a b = .ok sum) :
    sum = a + b ∧ sum.toNat = a.toNat + b.toNat := by
  by_cases fits : a.toNat + b.toNat < UInt32.size
  · rw [add32_eq_ok fits] at added
    cases added
    exact ⟨rfl, by rw [UInt32.toNat_add, Nat.mod_eq_of_lt fits]⟩
  · rw [add32_eq_error (Nat.not_lt.mp fits)] at added
    cases added

end Handheld
