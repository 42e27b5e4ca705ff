import SqlInterchange.Log
import SqlInterchange.Options
import SqlInterchange.Sql.RowStatement
import SqlInterchange.Sql.SchemaStatement
import SqlInterchange.Sql.Script
import SqlInterchange.Sql.TableDefinition

/-! # Documents as statements

A document is compiled to statements in the order of their execution: each table is dropped and
made anew, then come the further schema statements, the inserts, the updates and the deletes.
Statements that make an index form a second group, to be executed after the first. Entries for
reserved tables are left out; the log says which. -/
namespace SqlInterchange

/-- The statements of a document. -/
structure Compiled where
  /-- The statements to execute first. -/
  main : List Text
  /-- The statements that make an index, to execute after them. -/
  deferred : List Text
deriving DecidableEq

namespace Compiled

/-- All statements, in the order of their execution. -/
def statements (c : Compiled) : List Text := c.main ++ c.deferred

/-- The number of statements of both groups. -/
def total (c : Compiled) : Nat := c.main.length + c.deferred.length

/-- The statements as one script. -/
def script (c : Compiled) : Text := Script.ofStatements c.statements

end Compiled

/-- What to compile of a document, and how. -/
structure Scope where
  /-- The most rows of one insert; below one there is no limit. -/
  batchInsertSize : Int
  /-- Whether to compile the shape of tables. -/
  includeSchema : Bool
  /-- Whether to compile the changes of rows. -/
  includeChanges : Bool
deriving DecidableEq

namespace Scope

/-- Everything, in batches of the standard size. -/
def standard : Scope := ⟨250, true, true⟩

/-- What options ask for. -/
def ofOptions (o : Options) : Scope :=
  ⟨o.batchInsertSize, !o.isDataOnly, !o.isStructureOnly⟩

end Scope

namespace Document

variable {α : Type}

/-- The entries for tables that are not reserved. -/
def unreserved (entries : OrderedMap α) : OrderedMap α :=
  entries.filterKeys (!Identifier.isReserved ·)

/-- The statements that drop tables and make them anew. -/
def tableStatements (tables : OrderedMap Text) : List Text :=
  tables.entries.flatMap fun (table, clause) =>
    [TableDefinition.renderDrop table, TableDefinition.render table clause]

/-- The statements of each table of a section, in order. -/
def sectionStatements (render : Text → α → List Text) (entries : OrderedMap α) : List Text :=
  (unreserved entries).entries.flatMap fun (table, entry) => render table entry

/-- The statements for the shape of tables. -/
def compileSchema (s : Schema) : Compiled :=
  let (main, deferred) := SchemaStatement.route s.otherSql
  ⟨tableStatements (unreserved s.tables) ++ main, deferred⟩

/-- The statements for the changes of rows. -/
def compileChanges (batchInsertSize : Int) (c : Changes) : List Text :=
  sectionStatements (RowStatement.inserts batchInsertSize) c.inserts ++
    sectionStatements (fun table us =>
      us.map fun u => RowStatement.renderUpdate table u.assignments u.conditions) c.updates ++
    sectionStatements (fun table rows => rows.map (RowStatement.renderDelete table)) c.deletes

/-- The shape of tables to compile. -/
def schemaIn (scope : Scope) (d : Document) : Option Schema :=
  if scope.includeSchema then d.schema? else none

/-- The changes of rows to compile. -/
def changesIn (scope : Scope) (d : Document) : Option Changes :=
  if scope.includeChanges then d.changes? else none

/-- The statements of a document. -/
def compile (scope : Scope) (d : Document) : Compiled :=
  let schema := ((d.schemaIn scope).map compileSchema).getD ⟨[], []⟩
  let changes := ((d.changesIn scope).map (compileChanges scope.batchInsertSize)).getD []
  ⟨schema.main ++ changes, schema.deferred⟩

/-- The entries of a section that are left out, as the log says. -/
def skipped (part : String) (entries : OrderedMap α) : List LogEntry :=
  (entries.keys.filter Identifier.isReserved).map (.reservedTableSkipped part.toList)

/-- What the log says of the compilation of a document. -/
def compileLog (scope : Scope) (d : Document) : List LogEntry :=
  let compiled := d.compile scope
  ((d.schemaIn scope).map fun s => skipped "structure.tables" s.tables).getD [] ++
    ((d.changesIn scope).map fun c =>
      skipped "data.inserts" c.inserts ++ skipped "data.updates" c.updates ++
        skipped "data.deletes" c.deletes).getD [] ++
    [.documentCompiled compiled.main.length compiled.deferred.length scope.batchInsertSize]

end Document
end SqlInterchange
