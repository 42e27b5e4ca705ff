import SqlInterchange.Sql.Identifier
import SqlInterchange.Text.Utf8
import SqlInterchange.Value.Display

/-! # Literals

How a value stands in a statement, and which value a stored text stands for. Every value but null
is written as a text between apostrophes, each apostrophe in it doubled; truth values become the
words `true` and `false`. Reading from the database turns these words back into truth values,
`null` into null, and `undefined` into absence. -/
namespace SqlInterchange.Literal

/-- The delimiter of texts in statements. -/
def apostrophe : Char := '\x27'

/-- The text that a literal shows for a value, null and absence having none. -/
def content? : Value → Option Text
  | .null | .absent => none
  | .bool true => some "true".toList
  | .bool false => some "false".toList
  | v => some v.display

/-- What stands between the apostrophes of a literal. -/
def sanitize (v : Value) : Option Text := (content? v).map (Identifier.double apostrophe)

/-- A value as statements write it. -/
def render (v : Value) : Text :=
  match sanitize v with
  | none => "NULL".toList
  | some t => apostrophe :: t ++ [apostrophe]

/-- A stored value as exported statements write it: byte strings keep their bytes. -/
def renderStored : Value → Text
  | .bytes bs => 'X' :: apostrophe :: bs.flatMap (fun b => Text.hex 2 b.toNat) ++ [apostrophe]
  | v => render v

/-- The value that a stored text stands for. -/
def ofStoredText (t : Text) : Value :=
  if t = "true".toList then .bool true
  else if t = "false".toList then .bool false
  else if t = "null".toList then .null
  else if t = "undefined".toList then .absent
  else .text t

/-- The value that a stored value stands for. Byte strings are taken as UTF-8 text; values that
are not text stand for themselves. -/
def recover : Value → Value
  | .bytes bs => ofStoredText (Utf8.decodeLenient bs)
  | .text t => ofStoredText t
  | v => v

end SqlInterchange.Literal
