import SqlInterchange.Value
import SqlInterchange.Text.Printable

/-! # The text of a value

A value is shown in two ways. Inside a list, an object or an error message it is quoted: texts
stand between quotes and what cannot be printed is escaped. On its own a text is shown as it is,
and everything else as it is quoted. -/
namespace SqlInterchange

namespace Text

/-- The quote to stand around a text: the apostrophe, unless the text has apostrophes and no
quotation mark. -/
def quoteFor (hasApostrophe hasQuotationMark : Bool) : Char :=
  if hasApostrophe && !hasQuotationMark then '\x22' else '\x27'

/-- One character between quotes of the kind `quote`: the quote, the backslash, tabs and line
breaks have escapes of two characters, other characters that cannot be printed have their
number. -/
def quotedChar (quote c : Char) : Text :=
  if c = quote || c = '\\' then ['\\', c]
  else if c = '\t' then ['\\', 't']
  else if c = '\n' then ['\\', 'n']
  else if c = '\r' then ['\\', 'r']
  else if isPrintable c then [c]
  else if c.toNat < 0x100 then '\\' :: 'x' :: hex 2 c.toNat
  else if c.toNat < 0x10000 then '\\' :: 'u' :: hex 4 c.toNat
  else '\\' :: 'U' :: hex 8 c.toNat

/-- A text between quotes. -/
def quoted (t : Text) : Text :=
  let quote := quoteFor (t.contains '\x27') (t.contains '\x22')
  quote :: t.flatMap (quotedChar quote) ++ [quote]

/-- One byte between quotes of the kind `quote`; only ASCII is shown as it is. -/
def quotedByte (quote : Char) (b : UInt8) : Text :=
  if b < 0x20 || 0x7F ≤ b then
    if b = 0x09 then ['\\', 't']
    else if b = 0x0A then ['\\', 'n']
    else if b = 0x0D then ['\\', 'r']
    else '\\' :: 'x' :: hex 2 b.toNat
  else
    let c := Char.ofNat b.toNat
    if c = quote || c = '\\' then ['\\', c] else [c]

/-- A byte string between quotes, marked as one. -/
def quotedBytes (bs : List UInt8) : Text :=
  let quote := quoteFor (bs.contains 0x27) (bs.contains 0x22)
  'b' :: quote :: bs.flatMap (quotedByte quote) ++ [quote]

end Text

namespace Value

mutual

/-- A value as it is shown inside others. -/
def quoted : Value → Text
  | null => "None".toList
  | bool true => "True".toList
  | bool false => "False".toList
  | int n => Decimal.ofInt n
  | float x => x.toText
  | text t => t.quoted
  | bytes bs => Text.quotedBytes bs
  | absent => "ABSENT".toList
  | list items => '[' :: Text.joinWith ", " (quotedItems items) ++ [']']
  | object fields => '\x7b' :: Text.joinWith ", " (quotedFields fields) ++ ['\x7d']

/-- The items of a list as they are shown inside it. -/
def quotedItems : List Value → List Text
  | [] => []
  | v :: vs => quoted v :: quotedItems vs

/-- The fields of an object as they are shown inside it. -/
def quotedFields : List (Text × Value) → List Text
  | [] => []
  | (name, v) :: fs => (name.quoted ++ ':' :: ' ' :: quoted v) :: quotedFields fs

end

/-- A value as it is shown on its own. -/
def display : Value → Text
  | text t => t
  | v => quoted v

end Value
end SqlInterchange
