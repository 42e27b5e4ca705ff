import SqlInterchange.OrderedMap
import SqlInterchange.Number.Binary64

/-! # Values

A value is what a cell of a table holds, what stands in a document, and what an option is set to.
Documents hold the scalars; byte strings and the mark of absence occur in cells only; lists and
objects occur in JSON text and in options. -/
namespace SqlInterchange

/-- A value of any kind. -/
inductive Value where
  /-- No value, as a value. -/
  | null
  /-- A truth value. -/
  | bool (b : Bool)
  /-- An integer of any size. -/
  | int (n : Int)
  /-- A floating point number. -/
  | float (x : Binary64)
  /-- A text. -/
  | text (t : Text)
  /-- A byte string. -/
  | bytes (bs : List UInt8)
  /-- The mark that there is no value at all. -/
  | absent
  /-- A list of values. -/
  | list (items : List Value)
  /-- Fields and their values, in order. -/
  | object (fields : List (Text × Value))

/-- One row of a table: columns and their values, in the order of the columns. -/
abbrev Row := OrderedMap Value

namespace Value

instance : Inhabited Value := ⟨null⟩

/-- Whether a value may stand in a row of a document. -/
def isScalar : Value → Bool
  | null | bool _ | int _ | float _ | text _ => true
  | bytes _ | absent | list _ | object _ => false

/-- The text that a value is, if it is one. -/
def text? : Value → Option Text
  | text t => some t
  | _ => none

/-- Whether a value counts as set where only that is asked: null, false, zero, absence and
everything empty do not. -/
def isTruthy : Value → Bool
  | null | absent => false
  | bool b => b
  | int n => n != 0
  | float x => !x.isZero
  | text t => !t.isEmpty
  | bytes bs => !bs.isEmpty
  | list items => !items.isEmpty
  | object fields => !fields.isEmpty

/-- The name of a value's kind, as error messages give it. -/
def typeName : Value → Text
  | null => "NoneType".toList
  | bool _ => "bool".toList
  | int _ => "int".toList
  | float _ => "float".toList
  | text _ => "str".toList
  | bytes _ => "bytes".toList
  | absent => "_Absent".toList
  | list _ => "list".toList
  | object _ => "dict".toList

/-- The items that a value can be taken apart into: the characters of a text, the numbers of a
byte string, the items of a list, the names of an object. -/
def items? : Value → Option (List Value)
  | text t => some (t.map fun c => text [c])
  | bytes bs => some (bs.map fun b => int b.toNat)
  | list items => some items
  | object fields => some (fields.map fun f => text f.1)
  | _ => none

end Value
end SqlInterchange
