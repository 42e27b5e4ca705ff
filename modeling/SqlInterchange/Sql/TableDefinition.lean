import SqlInterchange.Sql.Identifier

/-! # Table definitions

The catalog of a database holds the text of the statement that made each table. This module reads
such a text as the name of the table and the clause that lists its columns, and writes it from
the two. Keywords count in any letter case and blanks between them are free. The name may stand
in quotation marks, back-ticks or brackets; a bare name runs to the next blank or parenthesis. -/
namespace SqlInterchange.TableDefinition

/-- What follows a word and at least one blank. -/
def stripWord? (word : String) (t : Text) : Option Text :=
  (Text.stripWord? word.toList t).bind Text.stripBlanks?

/-- The rest of a name in quotes, the closing quote included, and what follows it. A doubled quote
is part of the name. If no single quote closes the name, the last doubled one does with its first
half. -/
def closeQuoted? (quote : Char) : Text → Option (Text × Text)
  | [] => none
  | c :: cs =>
    if c ≠ quote then (closeQuoted? quote cs).map fun (name, rest) => (c :: name, rest)
    else
      match cs with
      | [] => some ([c], [])
      | d :: ds =>
        if d ≠ quote then some ([c], cs)
        else
          match closeQuoted? quote ds with
          | some (name, rest) => some (c :: d :: name, rest)
          | none => some ([c], cs)

/-- The rest of a name in brackets, the closing bracket included, and what follows it. -/
def closeBracketed? : Text → Option (Text × Text)
  | [] => none
  | c :: cs =>
    if c = ']' then some ([c], cs)
    else (closeBracketed? cs).map fun (name, rest) => (c :: name, rest)

/-- A name in delimiters, and what follows it. -/
def delimited? : Text → Option (Text × Text)
  | [] => none
  | c :: cs =>
    let body? :=
      if c = '\x22' ∨ c = Identifier.backtick then closeQuoted? c cs
      else if c = '[' then closeBracketed? cs
      else none
    body?.map fun (name, rest) => (c :: name, rest)

/-- Whether a character may stand in a bare name. -/
def isNameChar (c : Char) : Bool := !(Text.isBlank c || c == '(')

/-- A name in no delimiters, and what follows it. -/
def bare? (t : Text) : Option (Text × Text) :=
  let name := t.takeWhile isNameChar
  if name.isEmpty then none else some (name, t.dropWhile isNameChar)

/-- The name at the start of a text as it is written, and what follows it. -/
def name? (t : Text) : Option (Text × Text) := (delimited? t).or (bare? t)

/-- What follows the words that keep an existing table. -/
def stripIfNotExists? (t : Text) : Option Text :=
  ((stripWord? "IF" t).bind (stripWord? "NOT")).bind (stripWord? "EXISTS")

/-- The written name in the rest of a definition, and what follows it. Where no name follows
`IF NOT EXISTS`, the word `IF` is the name. -/
def target? (t : Text) : Option (Text × Text) :=
  ((stripIfNotExists? t).bind name?).or (name? t)

/-- The name of the table that a statement makes, and the clause behind the name; nothing if the
statement makes no table. -/
def parse? (sql : Text) : Option (Text × Text) :=
  let afterWords? := (stripWord? "CREATE" (Text.trimStart sql)).bind (stripWord? "TABLE")
  (afterWords?.bind target?).map fun (token, clause) =>
    (Identifier.unescape token, Text.trim clause)

/-- The statement that makes a table. -/
def render (table clause : Text) : Text :=
  "CREATE TABLE ".toList ++ Identifier.escape table ++ clause

/-- The statement that removes a table if there is one of that name. -/
def renderDrop (table : Text) : Text :=
  "DROP TABLE IF EXISTS ".toList ++ Identifier.escape table

end SqlInterchange.TableDefinition
