import SqlInterchange.Catalog
import SqlInterchange.Compile

/-! # Exports

What is read from a database for an export is a snapshot: the entries of its catalog, the
definitions to write and the rows of its tables. A snapshot becomes a script, which has the rows
as they are stored, or a document, which has the values that the rows stand for. The document of
a snapshot leaves out what has no place in it: values that are absent, and rows without any
value. -/
namespace SqlInterchange

/-- What is read from a database for an export. -/
structure Snapshot where
  /-- The entries of the catalog. -/
  entries : List Catalog.Entry
  /-- The definitions to export, in the order of the catalog. -/
  definitions : List Catalog.Definition
  /-- The tables whose rows to export, and their rows. -/
  contents : List (Text × List Row)

/-! ## As a script -/

/-- A database as a script. -/
structure ScriptExport where
  /-- The statements of the script. -/
  statements : List Text
deriving DecidableEq

namespace ScriptExport

/-- The text of the script. -/
def script (e : ScriptExport) : Text := Script.ofStatements e.statements

/-- The number of statements. -/
def count (e : ScriptExport) : Nat := e.statements.length

end ScriptExport

namespace Snapshot

/-- The statements for a definition; a table is dropped before it is made. -/
def definitionStatements (d : Catalog.Definition) : List Text :=
  (if d.isTable then [TableDefinition.renderDrop d.name] else []) ++ [Text.squeeze d.sql]

/-- The statements for the rows of a table. -/
def rowStatements (table : Text) (rows : List Row) : List Text :=
  rows.map (RowStatement.renderStored table)

/-- A snapshot as a script. -/
def toScript (s : Snapshot) : ScriptExport :=
  ⟨s.definitions.flatMap definitionStatements ++
    s.contents.flatMap fun (table, rows) => rowStatements table rows⟩

end Snapshot

/-! ## As a document -/

/-- A database as a document. -/
structure DocumentExport where
  /-- The document. -/
  document : Document
  /-- The number of statements that the document stands for, one for each row. -/
  count : Nat

namespace Snapshot

/-- The values that a stored row stands for; a column whose value is absent is left out. -/
def recoverRow (row : Row) : Row :=
  row.filterMap fun stored =>
    match Literal.recover stored with
    | .absent => none
    | v => some v

/-- The rows of a document for stored rows. -/
def documentRows (rows : List Row) : List Row := (rows.map recoverRow).filter (!·.isEmpty)

/-- The tables whose definition can be read, with their clauses. -/
def tableClauses (ds : List Catalog.Definition) : List (Text × Text) :=
  ds.filterMap fun d => d.clause?.map (d.name, ·)

/-- The definitions that are kept as further schema statements. -/
def otherStatements (ds : List Catalog.Definition) : List Text :=
  (ds.filter (·.clause?.isNone)).map fun d => Text.squeeze d.sql

/-- The rows of all tables as a section of a document; a table that comes twice has the rows of
its last time. -/
def inserts (contents : List (Text × List Row)) : OrderedMap (List Row) :=
  .ofList (contents.map fun (table, rows) => (table, documentRows rows))

/-- A snapshot as a document, with the halves asked for. -/
def toDocument (includeSchema includeChanges : Bool) (s : Snapshot) : DocumentExport :=
  let clauses := tableClauses s.definitions
  let others := otherStatements s.definitions
  let rows := s.contents.flatMap fun (_, rows) => documentRows rows
  { document :=
      { schema? := if includeSchema then some ⟨.ofList clauses, others⟩ else none
        changes? :=
          if includeChanges then some ⟨inserts s.contents, .empty, .empty⟩ else none }
    count := 2 * clauses.length + others.length + rows.length }

end Snapshot

/-! ## What the log says -/

/-- What the log says of the parts of a snapshot as they are read. -/
structure Remarks where
  /-- What it says of a definition. -/
  onDefinition : Catalog.Definition → List LogEntry
  /-- What it says of the rows of a table. -/
  onRows : Text → List Row → List LogEntry

namespace Remarks

/-- A script takes everything as it is; there is nothing to say. -/
def forScript : Remarks := ⟨fun _ => [], fun _ _ => []⟩

/-- A table whose definition cannot be read. -/
def unparsed (d : Catalog.Definition) : List LogEntry :=
  if d.isTable && d.clause?.isNone then [.unparsedTableDefinition d.name] else []

/-- The rows of a table that have no value. -/
def emptyRows (table : Text) (rows : List Row) : List LogEntry :=
  (rows.filter fun row => (Snapshot.recoverRow row).isEmpty).map fun _ => .emptyRowSkipped table

/-- A document leaves out rows, and moves definitions that cannot be read. -/
def forDocument : Remarks := ⟨unparsed, emptyRows⟩

end Remarks
end SqlInterchange
