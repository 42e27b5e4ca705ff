import SqlInterchange.Text

/-! # Identifiers

The name of a table or column in a statement. A name of ASCII letters and digits that starts with
a letter is written bare; every other name stands between back-ticks, each back-tick in it written
twice. In the catalog of a database names occur in other delimiters too, so reading accepts
quotation marks and square brackets as well.

Some names are not for users: the engine keeps names that start with `sqlite_` for itself, and a
double low line marks auxiliary tables. -/
namespace SqlInterchange.Identifier

/-- The delimiter of written names. -/
def backtick : Char := '\x60'

/-- A text with every `quote` in it written twice. -/
def double (quote : Char) (t : Text) : Text :=
  t.flatMap fun c => if c = quote then [quote, quote] else [c]

/-- A text with every two neighbouring `quote`s, from the left, made one. -/
def undouble (quote : Char) : Text → Text
  | c :: d :: cs =>
    if c = quote ∧ d = quote then quote :: undouble quote cs else c :: undouble quote (d :: cs)
  | cs => cs

/-- Whether a name needs no delimiters. -/
def isBare : Text → Bool
  | [] => false
  | c :: cs => c.isAlpha && cs.all Char.isAlphanum

/-- A name as statements write it. -/
def escape (name : Text) : Text :=
  if isBare name then name else backtick :: double backtick name ++ [backtick]

/-- The delimiter that closes what `c` opens. -/
def closing? (c : Char) : Option Char :=
  if c = backtick ∨ c = '\x22' then some c else if c = '[' then some ']' else none

/-- The name inside its delimiters: in brackets it stands as it is, in quotes its quotes are
doubled. -/
def inside (close : Char) (body : Text) : Text :=
  if close = ']' then body else undouble close body

/-- The name that a written name stands for. Text in no delimiters, or in delimiters that do not
match, is taken as it is, without blanks around it. -/
def unescape (token : Text) : Text :=
  match Text.trim token with
  | [] => []
  | first :: rest =>
    match closing? first, rest.getLast? with
    | some close, some last => if last = close then inside close rest.dropLast else first :: rest
    | _, _ => first :: rest

/-- Whether a table is the engine's own or an auxiliary one. -/
def isReserved (name : Text) : Bool :=
  "sqlite_".toList.isPrefixOf (name.map Char.toLower) || Text.occursIn "__".toList name

end SqlInterchange.Identifier
