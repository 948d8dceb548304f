/-
# Documents

The self-describing form of the smaller types, as JSON has it. A record is an
object with all of its fields, among which others may stand, or the list of its
fields in order. An alternative is its name, or an object from its name to what
it carries. A set of flags is the text of its names.
-/

import Handheld.Enumeration
import Handheld.FlagSet

namespace Handheld

/-- A self-describing value. Only whole numbers count as numbers; a decimal
fraction has a value of its own that no type accepts. -/
inductive Document
  | null
  | bool (value : Bool)
  | number (value : Int)
  | fraction
  | text (value : String)
  | list (items : List Document)
  | object (fields : List (String × Document))
  deriving Inhabited

/-- A type with a document form. -/
class Documented (α : Type) where
  toDocument : α → Document
  ofDocument? : Document → Option α

namespace Document

export Documented (toDocument ofDocument?)

/-- The named fields of a record, in this order. -/
def fields? (names : List String) : Document → Option (List Document)
  | .object fields => names.mapM fun name => fields.lookup name
  | .list items => if items.length = names.length then some items else none
  | _ => none

/-- A whole number in the range of a word. -/
def natural? (limit : Nat) : Document → Option Nat
  | .number value => if 0 ≤ value ∧ value < limit then some value.toNat else none
  | _ => none

instance : Documented UInt8 where
  toDocument n := .number n.toNat
  ofDocument? document := (natural? UInt8.size document).map UInt8.ofNat

instance : Documented UInt16 where
  toDocument n := .number n.toNat
  ofDocument? document := (natural? UInt16.size document).map UInt16.ofNat

instance : Documented UInt32 where
  toDocument n := .number n.toNat
  ofDocument? document := (natural? UInt32.size document).map UInt32.ofNat

instance : Documented UInt64 where
  toDocument n := .number n.toNat
  ofDocument? document := (natural? UInt64.size document).map UInt64.ofNat

instance : Documented Bool where
  toDocument := .bool
  ofDocument?
    | .bool value => some value
    | _ => none

/-- A name and what it carries, if anything. -/
def tagged? : Document → Option (String × Document)
  | .text name => some (name, .null)
  | .object [(name, content)] => some (name, content)
  | _ => none

/-- An alternative without content. -/
@[reducible]
def alternative {α : Type} [Enumeration α] : Documented α where
  toDocument a := .text (Enumeration.name a)
  ofDocument? document := do
    let (name, content) ← tagged? document
    match content with
    | .null => Enumeration.ofName? name
    | _ => none

/-- A set of flags. -/
@[reducible]
def flagSet {α : Type} [FlagSet α] : Documented α where
  toDocument flags := .text (FlagSet.text flags)
  ofDocument?
    | .text names => FlagSet.ofText? names
    | _ => none

end Document

end Handheld
