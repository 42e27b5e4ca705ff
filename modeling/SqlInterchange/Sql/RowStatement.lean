import SqlInterchange.Sql.Literal

/-! # Row statements

Statements that insert, change and remove rows. Inserts take several rows in one statement: the
first row names its columns, the others follow as the further parts of a union. A statement holds
at most a given number of rows, and all its rows name the same columns. -/
namespace SqlInterchange.RowStatement

/-- The names of columns in a list. -/
def columnList (columns : List Text) : Text :=
  Text.joinWith ", " (columns.map Identifier.escape)

/-! ## Inserts -/

/-- The rows of one statement: the row that gives the columns and their order, and the others. -/
structure Batch where
  /-- The row that names the columns. -/
  first : Row
  /-- The rows after it. -/
  others : List Row

/-- The rows of a batch. -/
def Batch.rows (b : Batch) : List Row := b.first :: b.others

/-- Whether another row starts a batch of its own: the batch has as many rows as it may have, or
the row names other columns. -/
def Batch.isClosedTo (limit : Int) (b : Batch) (row : Row) : Bool :=
  (b.rows.length : Int) == limit || !row.sameKeys b.first

/-- The batches of rows, the first of them already begun. -/
def batchesFrom (limit : Int) (begun : Batch) : List Row → List Batch
  | [] => [begun]
  | row :: rows =>
    if begun.isClosedTo limit row then begun :: batchesFrom limit ⟨row, []⟩ rows
    else batchesFrom limit ⟨begun.first, begun.others ++ [row]⟩ rows

/-- The rows in batches, in order, each batch as long as it may be. A limit below one limits
nothing. -/
def batches (limit : Int) : List Row → List Batch
  | [] => []
  | row :: rows => batchesFrom limit ⟨row, []⟩ rows

/-- The value of a row in a column. -/
def cell (row : Row) (column : Text) : Value := (row.get? column).getD .null

/-- The values of the first row, each with the name of its column. -/
def projection (row : Row) : Text :=
  Text.joinWith ", " (row.entries.map fun (column, value) =>
    Literal.render value ++ " AS ".toList ++ Identifier.escape column)

/-- The values of a further row, in the order of the columns. -/
def unionPart (columns : List Text) (row : Row) : Text :=
  " UNION SELECT ".toList ++
    Text.joinWith ", " (columns.map fun column => Literal.render (cell row column))

/-- The statement that inserts the rows of a batch. -/
def renderInsert (table : Text) (b : Batch) : Text :=
  "INSERT OR REPLACE INTO ".toList ++ Identifier.escape table ++ '(' :: columnList b.first.keys ++
    ") SELECT ".toList ++ projection b.first ++ b.others.flatMap (unionPart b.first.keys)

/-- The statements that insert the rows, in order. -/
def inserts (limit : Int) (table : Text) (rows : List Row) : List Text :=
  (batches limit rows).map (renderInsert table)

/-- The statement that inserts one row as it is stored. -/
def renderStored (table : Text) (row : Row) : Text :=
  "INSERT OR REPLACE INTO ".toList ++ Identifier.escape table ++ '(' :: columnList row.keys ++
    ") VALUES (".toList ++ Text.joinWith ", " (row.values.map Literal.renderStored) ++ [')']

/-! ## Updates and deletes -/

/-- A column and the value it gets. -/
def assignment (field : Text × Value) : Text :=
  Identifier.escape field.1 ++ '=' :: Literal.render field.2

/-- The test that a column has a value; nothing equals null, so null has a test of its own. -/
def condition (field : Text × Value) : Text :=
  match field.2 with
  | .null => Identifier.escape field.1 ++ " IS NULL".toList
  | _ => assignment field

/-- The test that a row has all the values given. -/
def conditions (row : Row) : Text := Text.joinWith " AND " (row.entries.map condition)

/-- The statement that changes rows; without conditions it changes all. -/
def renderUpdate (table : Text) (assignments matching : Row) : Text :=
  "UPDATE ".toList ++ Identifier.escape table ++ " SET ".toList ++
    Text.joinWith ", " (assignments.entries.map assignment) ++
    (if matching.isEmpty then [] else " WHERE ".toList ++ conditions matching)

/-- The statement that removes the rows with the values given. -/
def renderDelete (table : Text) (matching : Row) : Text :=
  "DELETE FROM ".toList ++ Identifier.escape table ++ " WHERE ".toList ++ conditions matching

end SqlInterchange.RowStatement
