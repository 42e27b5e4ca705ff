import SqlInterchange.Sql.Identifier

/-! # Scripts

A script is a text of statements that semicolons end. Comments are no part of a statement: each
block comment, like each line break, counts as one space, and a line comment as the line break
that ends it. Inside quotes nothing has a meaning but the closing quote; a doubled quote closes
and opens again, which comes to the same. A quote or comment that is never closed runs to the end
of the script.

The scanner goes through the text one character at a time and looks at most one character ahead. -/
namespace SqlInterchange.Script

/-- Where in the text the scanner is. -/
inductive Mode where
  /-- Outside quotes and comments. -/
  | plain
  /-- Between two quotes of this kind. -/
  | literal (quote : Char)
  /-- In a comment that ends with the line. -/
  | lineComment
  /-- Before the star of the marker that opens a block comment. -/
  | opening
  /-- In a block comment. -/
  | blockComment
  /-- Before the slash of the marker that closes a block comment. -/
  | closing
deriving DecidableEq

/-- What becomes of one character. -/
inductive Move where
  /-- It ends the statement. -/
  | cut
  /-- The statement gets this text, and the scanner goes on in this mode. -/
  | keep (kept : Text) (mode : Mode)
deriving DecidableEq

/-- The characters that open and close literals. -/
def isQuote (c : Char) : Bool := c == '\x27' || c == '\x22' || c == Identifier.backtick

/-- What becomes of the character `c` outside quotes and comments. -/
def plainStep (c : Char) (next? : Option Char) : Move :=
  if c = '-' ∧ next? = some '-' then .keep [] .lineComment
  else if c = '/' ∧ next? = some '*' then .keep [] .opening
  else if c = ';' then .cut
  else if Text.isLineBreak c then .keep [' '] .plain
  else .keep [c] (if isQuote c then .literal c else .plain)

/-- What becomes of the character `c`, `next?` being the one after it. -/
def step (mode : Mode) (c : Char) (next? : Option Char) : Move :=
  match mode with
  | .plain => plainStep c next?
  | .literal quote => .keep [c] (if c = quote then .plain else .literal quote)
  | .lineComment => if Text.isLineBreak c then .keep [' '] .plain else .keep [] .lineComment
  | .opening => .keep [] .blockComment
  | .blockComment =>
    if c = '*' ∧ next? = some '/' then .keep [' '] .closing else .keep [] .blockComment
  | .closing => .keep [] .plain

/-- Puts text in front of the first piece. -/
def prepend (kept : Text) : List Text → List Text
  | [] => [kept]
  | piece :: pieces => (kept ++ piece) :: pieces

/-- The pieces between the semicolons of the rest of a script; the first one goes on with what
came before. -/
def piecesFrom (mode : Mode) : Text → List Text
  | [] => [[]]
  | c :: cs =>
    match step mode c cs.head? with
    | .cut => [] :: piecesFrom .plain cs
    | .keep kept mode => prepend kept (piecesFrom mode cs)

/-- The statements of a script: the pieces between its semicolons, trimmed, without the empty
ones. -/
def split (script : Text) : List Text :=
  ((piecesFrom .plain script).map Text.trim).filter (!·.isEmpty)

/-! ## Writing scripts -/

/-- What stands behind every statement of a written script. -/
def separator : Text := [';', '\n']

/-- The script of some statements. -/
def ofStatements (statements : List Text) : Text := statements.flatMap (· ++ separator)

end SqlInterchange.Script
