import SqlInterchange.Text.Word

/-! # Schema statements

Statements of a document that are no table definitions: indexes, views, triggers. They are cleaned
of blanks and semicolons at their ends, and those that make an index are told from the others,
because indexes are made after all rows are in. -/
namespace SqlInterchange.SchemaStatement

/-- A statement without blanks around it and without the semicolons that end it. -/
def clean (statement : Text) : Text :=
  Text.trimEnd (Text.dropEndWhile (· == ';') (Text.trim statement))

/-- What follows `CREATE` and blanks. -/
def afterCreate? (statement : Text) : Option Text :=
  (Text.stripWord? "CREATE".toList (Text.trimStart statement)).bind Text.stripBlanks?

/-- What follows `UNIQUE` and blanks. -/
def afterUnique? (t : Text) : Option Text :=
  (Text.stripWord? "UNIQUE".toList t).bind Text.stripBlanks?

/-- Whether a text starts with the word `INDEX`, as a word of its own. -/
def startsWithIndex (t : Text) : Bool :=
  (Text.stripWord? "INDEX".toList t).any Text.endsWord

/-- Whether a statement makes an index. -/
def makesIndex (statement : Text) : Bool :=
  (afterCreate? statement).any fun t =>
    startsWithIndex t || (afterUnique? t).any startsWithIndex

/-- The statements cleaned, without those that had nothing in them. -/
def cleaned (statements : List Text) : List Text :=
  (statements.map clean).filter (!·.isEmpty)

/-- The statements that make no index, and those that make one, each group in order. -/
def route (statements : List Text) : List Text × List Text :=
  let kept := cleaned statements
  (kept.filter (!makesIndex ·), kept.filter makesIndex)

end SqlInterchange.SchemaStatement
