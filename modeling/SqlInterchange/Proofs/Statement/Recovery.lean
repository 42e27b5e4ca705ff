import SqlInterchange.Proofs.Statement.Batches

/-! # Rows recovered from an insert

An insert tells what was inserted: the table, the columns of the first row in their order, and for
each row the text that it has in each of its columns.  Rows after the first give their values in the
order of the first, so nothing is told of the order in which they list their own.  Since this is
read off the text alone, inserts with the same text are of the same rows, up to the kinds of values
with the same text; null has no text and is not mixed up with one
(`inserts_are_uniquely_readable`).
-/
namespace SqlInterchange

open Token

namespace Insertion

/-- The cell that a part of an insert has in a column, if the column is named. -/
def texts (columns : List Text) (part : List Cell) (column : Text) : Option Cell :=
  (columns.zip part).lookup column

/-- Whether an insert, as it is read, tells a table, the columns of the first row and the texts of
all rows. -/
structure Tells (i : Insertion) (table : Text) (rows : List Row) : Prop where
  /-- The table is the one that gets the rows. -/
  table : i.table = table
  /-- The columns are those of the first row, in its order. -/
  columns : some i.columns = rows.head?.map OrderedMap.keys
  /-- The parts have the texts of the rows. -/
  rows : i.parts.map (texts i.columns) = rows.map RowStatement.texts

variable {i : Insertion} {table table' : Text} {rows rows' : List Row}

theorem Tells.length_eq (h : i.Tells table rows) (h' : i.Tells table' rows') :
    rows.length = rows'.length := by
  have hrows : rows.map RowStatement.texts = rows'.map RowStatement.texts :=
    h.rows.symm.trans h'.rows
  simpa using congrArg List.length hrows

theorem Tells.texts_eq (h : i.Tells table rows) (h' : i.Tells table' rows') {n : Nat}
    {row row' : Row} (hrow : rows[n]? = some row) (hrow' : rows'[n]? = some row') :
    RowStatement.texts row = RowStatement.texts row' := by
  have hrows : rows.map RowStatement.texts = rows'.map RowStatement.texts :=
    h.rows.symm.trans h'.rows
  have hn := congrArg (·[n]?) hrows
  simpa [hrow, hrow'] using hn

end Insertion

namespace RowStatement

variable {limit limit' : Int} {table table' : Text} {rows rows' : List Row} {s : Text}

/-- Rows with a single statement are a single batch. -/
theorem exists_batch (h : inserts limit table rows = [s]) :
    ∃ b ∈ batches limit rows, b.rows = rows ∧ renderInsert table b = s := by
  obtain ⟨b, hb, hs⟩ := List.map_eq_singleton_iff.mp h
  have hrows := rows_batches limit rows
  rw [hb, List.flatMap_singleton] at hrows
  exact ⟨b, hb ▸ List.mem_singleton_self b, hrows, hs⟩

/-- **An insert tells its rows.** -/
theorem exists_tells (h : inserts limit table rows = [s]) (hrows : ∀ row ∈ rows, row.entries ≠ []) :
    ∃ i, Insertion.read? s = some i ∧ i.Tells table rows := by
  obtain ⟨b, hb, rfl, rfl⟩ := exists_batch h
  refine ⟨_, Insertion.read?_renderInsert table (hrows b.first (List.mem_cons_self ..)), ?_⟩
  refine ⟨rfl, rfl, ?_⟩
  rw [List.map_map]
  refine List.map_congr_left fun row hrow => ?_
  funext column
  exact lookup_cells (sameKeys_of_mem_batches hb hrow) column

/-- **Main.** The text of an insert tells the table, the columns of the first row in their order,
and the text of each row in each column.  So of rows with the same insert the tables, these columns,
the numbers of rows and the texts of all values are the same. -/
theorem inserts_are_uniquely_readable (hrows : ∀ row ∈ rows, row.entries ≠ [])
    (hrows' : ∀ row ∈ rows', row.entries ≠ []) (h : inserts limit table rows = [s])
    (h' : inserts limit' table' rows' = [s]) :
    (∃ i, Insertion.read? s = some i ∧ i.Tells table rows ∧ i.Tells table' rows') ∧
      table = table' ∧
      rows.head?.map OrderedMap.keys = rows'.head?.map OrderedMap.keys ∧
      rows.length = rows'.length ∧
      ∀ (n : Nat) (row row' : Row), rows[n]? = some row → rows'[n]? = some row' → ∀ column,
        (row.get? column).map Literal.sanitize = (row'.get? column).map Literal.sanitize := by
  obtain ⟨i, hi, htells⟩ := exists_tells h hrows
  obtain ⟨i', hi', htells'⟩ := exists_tells h' hrows'
  obtain rfl : i = i' := Option.some.inj (hi.symm.trans hi')
  refine ⟨⟨i, hi, htells, htells'⟩, htells.table.symm.trans htells'.table,
    htells.columns.symm.trans htells'.columns, htells.length_eq htells', ?_⟩
  intro n row row' hrow hrow' column
  have htext := congrFun (htells.texts_eq htells' hrow hrow') column
  -- a value is sanitized by its text alone
  have hsanitize (row : Row) : (row.get? column).map Literal.sanitize =
      (texts row column).map (Option.map (Identifier.double Literal.apostrophe)) := by
    rw [texts, Option.map_map]
    rfl
  rw [hsanitize row, htext, hsanitize row']

/-- Two rows with names and texts that look like parts of a statement, the second one in another
order than the first. -/
def crossedRows : List Row :=
  [.ofList [("a AS b".toList, .bool false), ("c".toList, .null)],
    .ofList [("c".toList, .text "' UNION SELECT NULL".toList), ("a AS b".toList, .bool true)]]

/-- The same columns with the texts of their values. -/
def crossedTexts : List Row :=
  [.ofList [("a AS b".toList, .text "false".toList), ("c".toList, .null)],
    .ofList [("a AS b".toList, .text "true".toList),
      ("c".toList, .text "' UNION SELECT NULL".toList)]]

/-- The insert of both. -/
def crossedInsert : Text :=
  "INSERT OR REPLACE INTO t(\x60a AS b\x60, c)".toList ++
    " SELECT 'false' AS \x60a AS b\x60, NULL AS c".toList ++
    " UNION SELECT 'true', ''' UNION SELECT NULL'".toList

theorem crossedInsert_is_uniquely_readable :
    inserts 2 "t".toList crossedRows = [crossedInsert] ∧
      inserts 250 "t".toList crossedTexts = [crossedInsert] ∧
      ∃ i, Insertion.read? crossedInsert = some i ∧ i.Tells "t".toList crossedRows ∧
        i.Tells "t".toList crossedTexts := by
  have hrows : ∀ row ∈ crossedRows, row.entries ≠ [] := by decide
  have hrows' : ∀ row ∈ crossedTexts, row.entries ≠ [] := by decide
  have h : inserts 2 "t".toList crossedRows = [crossedInsert] := by decide
  have h' : inserts 250 "t".toList crossedTexts = [crossedInsert] := by decide
  exact ⟨h, h', (inserts_are_uniquely_readable hrows hrows' h h').1⟩

end RowStatement
end SqlInterchange
