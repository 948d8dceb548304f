/-
# Enumerations

Several types of the model are short closed lists of alternatives. An
alternative is known by its name in texts and documents, and by its position
in the list on the wire.
-/

namespace Handheld

/-- A closed list of named alternatives, in the order of their numbers. -/
class Enumeration (α : Type) where
  members : List α
  name : α → String

namespace Enumeration

variable {α : Type} [Enumeration α]

/-- The position of an alternative. -/
def number [DecidableEq α] (a : α) : Nat :=
  (members : List α).idxOf a

/-- The alternative at a position. -/
def ofNumber? (n : Nat) : Option α :=
  (members : List α)[n]?

/-- The alternative of a name, which must be spelled exactly. -/
def ofName? (text : String) : Option α :=
  (members : List α).find? fun a => name a == text

end Enumeration

end Handheld
