import SqlInterchange.Log
import SqlInterchange.Options
import SqlInterchange.Sql.TableDefinition

/-! # The catalog of a database

The catalog lists the tables, indexes, views and triggers of a database, each with the statement
that made it. An entry belongs to a table: an index and a trigger to the table they are for.
Entries without a statement, entries of reserved tables and entries of tables that are not to be
taken are passed over. -/
namespace SqlInterchange.Catalog

/-- The statement that reads the catalog. -/
def query : Text := "SELECT type, name, tbl_name, sql FROM sqlite_master".toList

/-- The statement that reads a table. -/
def tableQuery (table : Text) : Text := "SELECT * FROM ".toList ++ Identifier.escape table

/-- An entry of the catalog. -/
structure Entry where
  /-- What the entry is for. -/
  type : Value
  /-- Its name. -/
  name : Text
  /-- The table that it belongs to. -/
  table : Text
  /-- The statement that made it. -/
  definition : Value

/-- Whether an entry is for a table. -/
def Entry.isTable (e : Entry) : Bool := e.type.text? == some "table".toList

/-- The value of a row of the catalog in a column. -/
def column (row : Row) (name : String) : Except Fault Value :=
  match row.get? name.toList with
  | some v => .ok v
  | none => .error (.missingColumn name.toList)

/-- A name in the catalog. -/
def nameText (v : Value) : Except Fault Text :=
  match v with
  | .text t => .ok t
  | v => .error (.nameNotText v)

/-- The entry that a row of the catalog is, if it is one to take. -/
def taken? (o : Options) (row : Row) : Except Fault (Option Entry) := do
  match ← column row "sql" with
  | .null => .ok none
  | definition =>
    let type ← column row "type"
    let name ← column row "name"
    let table ← column row "tbl_name"
    let name ← nameText name
    if Identifier.isReserved name then .ok none
    else
      let table ← nameText table
      if Identifier.isReserved table || !o.includesTable table then .ok none
      else .ok (some ⟨type, name, table, definition⟩)

/-- The entries to take, in the order of the catalog. -/
def entries (o : Options) : List Row → Except Fault (List Entry)
  | [] => .ok []
  | row :: rows => do
    let first? ← taken? o row
    let rest ← entries o rows
    .ok (first?.toList ++ rest)

/-- The names of the tables among some entries. -/
def tables (es : List Entry) : List Text := (es.filter Entry.isTable).map Entry.name

/-- An entry whose statement is text. -/
structure Definition where
  /-- The name of the entry. -/
  name : Text
  /-- Whether it is for a table. -/
  isTable : Bool
  /-- The statement that made it. -/
  sql : Text
deriving DecidableEq

/-- The statement of an entry as text. -/
def Entry.definition? (e : Entry) : Except Fault Definition :=
  match e.definition with
  | .text sql => .ok ⟨e.name, e.isTable, sql⟩
  | v => .error (.definitionNotText v)

/-- The clause that lists the columns of a table, on one line, if the definition is for a table
and can be read. -/
def Definition.clause? (d : Definition) : Option Text :=
  if d.isTable then (TableDefinition.parse? d.sql).map fun (_, clause) => Text.squeeze clause
  else none

end SqlInterchange.Catalog
