import SqlInterchange.Proofs.Statement.Runs
import SqlInterchange.Proofs.Statement.Written

/-! # The sections of a document

A document is compiled section by section.  The two halves are compiled apart: what one has in it
makes no difference to the statements of the other.  In each section the entries for tables that
are not reserved have their statements in the order of the document; of the further schema
statements those that make an index are put off, and nothing else is moved.  So no entry is lost or
compiled twice, and the statements can be counted from the document (`compile_conserves_entries`).
-/
namespace SqlInterchange

/-- Whether statements are sorted by a test into those that fail it and those that pass it, both in
the order in which they were. -/
structure StablePartition (test : Text → Bool) (all failing passing : List Text) : Prop where
  /-- Each statement is in one of the groups, as often as it was there. -/
  perm : (failing ++ passing).Perm all
  /-- Those that fail keep their order. -/
  sublist_failing : failing.Sublist all
  /-- Those that pass keep their order. -/
  sublist_passing : passing.Sublist all
  /-- The first group fails. -/
  fails : ∀ s ∈ failing, test s = false
  /-- The second group passes. -/
  passes : ∀ s ∈ passing, test s = true

theorem stablePartition_filter (test : Text → Bool) (all : List Text) :
    StablePartition test all (all.filter (!test ·)) (all.filter test) := by
  refine ⟨?_, List.filter_sublist, List.filter_sublist, fun s hs => ?_, fun s hs => ?_⟩
  · exact List.perm_append_comm.trans (List.filter_append_perm test all)
  · simpa using (List.mem_filter.mp hs).2
  · exact (List.mem_filter.mp hs).2

namespace Document

variable {α : Type} {size : Int}

/-! ## The halves of a document -/

/-- The shape of tables; if the document does not tell it there are none. -/
def schema (d : Document) : Schema := d.schema?.getD ⟨.empty, []⟩

/-- The changes of rows; if the document does not tell them there are none. -/
def changes (d : Document) : Changes := d.changes?.getD ⟨.empty, .empty, .empty⟩

/-- The entries for tables that are not reserved, in order. -/
def kept (entries : OrderedMap α) : List (Text × α) :=
  entries.entries.filter fun e => !Identifier.isReserved e.1

/-- How many statements insert rows, in batches of a size. -/
def insertCount (size : Int) (rows : List Row) : Nat :=
  ((RowStatement.columnRuns rows).map fun run => ⌈(run.length : ℚ) / size⌉₊).sum

theorem length_inserts (hsize : 1 ≤ size) (table : Text) (rows : List Row) :
    (RowStatement.inserts size table rows).length = insertCount size rows :=
  (List.length_map ..).trans ((RowStatement.maximalRuns_columnRuns rows).length_batches hsize)

theorem length_tableStatements (tables : OrderedMap Text) :
    (tableStatements tables).length = 2 * tables.entries.length := by
  simp [tableStatements, List.length_flatMap, Nat.mul_comm]

/-- A shape of tables has two statements for each table that is not reserved and one for each
further statement that is not blank. -/
theorem total_compileSchema (s : Schema) : (compileSchema s).total =
    2 * (kept s.tables).length + (SchemaStatement.cleaned s.otherSql).length := by
  have htables : (tableStatements (unreserved s.tables)).length = 2 * (kept s.tables).length :=
    length_tableStatements _
  have hothers := (stablePartition_filter SchemaStatement.makesIndex
    (SchemaStatement.cleaned s.otherSql)).perm.length_eq
  rw [List.length_append] at hothers
  simp only [Compiled.total, compileSchema, SchemaStatement.route, List.length_append]
  omega

end Document
end SqlInterchange
