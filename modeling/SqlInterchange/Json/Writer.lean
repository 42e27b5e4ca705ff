import SqlInterchange.Value

/-! # Writing JSON

A value is written as JSON in printable ASCII: other characters are escaped by their code units.
The layout is on one line, with a space behind commas and colons, or on many lines with each
level indented by the same number of spaces; empty lists and objects stay on one line in both. -/
namespace SqlInterchange.Json

/-- A code unit as an escape with four digits of base sixteen. -/
def unitEscape (n : Nat) : Text := '\\' :: 'u' :: Text.hex 4 n

/-- A character in a string: as it is, as a short escape, or as one or two code units. -/
def writeChar (c : Char) : Text :=
  if c = '\x22' then ['\\', '\x22']
  else if c = '\\' then ['\\', '\\']
  else if c = '\n' then ['\\', 'n']
  else if c = '\r' then ['\\', 'r']
  else if c = '\t' then ['\\', 't']
  else if c = '\x08' then ['\\', 'b']
  else if c = '\x0c' then ['\\', 'f']
  else if 0x20 ≤ c.toNat && c.toNat < 0x7F then [c]
  else if c.toNat < 0x10000 then unitEscape c.toNat
  else
    let n := c.toNat - 0x10000
    unitEscape (0xD800 + n / 0x400) ++ unitEscape (0xDC00 + n % 0x400)

/-- A text as a string. -/
def writeString (t : Text) : Text := '\x22' :: t.flatMap writeChar ++ ['\x22']

/-- A floating point number. -/
def writeFloat : Binary64 → Text
  | .nan => "NaN".toList
  | .infinite negative => (if negative then ['-'] else []) ++ "Infinity".toList
  | x => x.toText

/-- How lists and objects are laid out: on one line, or with so many spaces for each level. -/
abbrev Indent := Option Nat

/-- The break before an item at a level. -/
def Indent.lineBreak (indent : Indent) (level : Nat) : Text :=
  match indent with
  | none => []
  | some n => '\n' :: List.replicate (n * level) ' '

/-- What stands between two items at a level. -/
def Indent.separator (indent : Indent) (level : Nat) : Text :=
  match indent with
  | none => [',', ' ']
  | some _ => ',' :: indent.lineBreak level

/-- Items between their brackets, at a level. -/
def enclose (indent : Indent) (level : Nat) (opening closing : Char) (parts : List Text) : Text :=
  if parts.isEmpty then [opening, closing]
  else
    opening :: indent.lineBreak (level + 1) ++
      List.intercalate (indent.separator (level + 1)) parts ++ indent.lineBreak level ++ [closing]

mutual

/-- A value at a level. Byte strings and absence have no form of their own and are written as
null. -/
def writeAt (indent : Indent) (level : Nat) : Value → Text
  | .null | .bytes _ | .absent => "null".toList
  | .bool true => "true".toList
  | .bool false => "false".toList
  | .int n => Decimal.ofInt n
  | .float x => writeFloat x
  | .text t => writeString t
  | .list items => enclose indent level '[' ']' (writeItems indent (level + 1) items)
  | .object fields => enclose indent level '\x7b' '\x7d' (writeFields indent (level + 1) fields)

/-- The items of a list, at their level. -/
def writeItems (indent : Indent) (level : Nat) : List Value → List Text
  | [] => []
  | v :: vs => writeAt indent level v :: writeItems indent level vs

/-- The fields of an object, at their level. -/
def writeFields (indent : Indent) (level : Nat) : List (Text × Value) → List Text
  | [] => []
  | (name, v) :: fs =>
    (writeString name ++ ':' :: ' ' :: writeAt indent level v) :: writeFields indent level fs

end

/-- A value as JSON text. -/
def write (indent : Indent) (v : Value) : Text := writeAt indent 0 v

end SqlInterchange.Json
