import Mathlib.Logic.Function.Basic
import SqlInterchange.Proofs.Export.Served
import SqlInterchange.Proofs.Statement.Insertion

/-! # Databases of texts

A database of tables without keys whose cells hold a text or nothing.  What is stored in it are
rows, and a row has a cell in each column of its table.

`Stores` says what a connection to such a database does and nothing else of it: the catalog lists
the tables with the statements that made them, selecting from a table answers its rows in order,
each with the columns in the order of the table, and an insert of one row appends the row, with
nothing in the columns that it does not name.  There is such a connection for all tables
(`stores_connection`).
-/
namespace SqlInterchange

open Token (Cell)

/-- The columns of a table. -/
structure Layout where
  /-- Their names, in order. -/
  columns : List Text
  /-- No column is there twice. -/
  nodup : columns.Nodup

namespace Database

/-- The value of a cell. -/
def cellValue (cell : Cell) : Value := cell.elim .null .text

/-- The rows that are stored in each table. -/
abbrev Contents := Text → List (Text → Cell)

/-- Nothing is stored. -/
def Contents.empty : Contents := fun _ => []

/-- What is stored after a row is appended to a table. -/
def Contents.append (contents : Contents) (table : Text) (row : Text → Cell) : Contents :=
  Function.update contents table (contents table ++ [row])

end Database

open Database

/-- A map with the columns of a table. -/
def Layout.rowOf (l : Layout) (value : Text → Value) : Row :=
  ⟨l.columns.map fun column => (column, value column), by
    rw [List.map_map]
    exact (List.map_id l.columns).symm ▸ l.nodup⟩

/-- A row as a selection answers it. -/
def Layout.row (l : Layout) (cells : Text → Cell) : Row :=
  l.rowOf fun column => cellValue (cells column)

namespace Database

variable {tables : OrderedMap Layout} {contents : Contents}

/-- What selecting from a table answers. -/
def answer (tables : OrderedMap Layout) (contents : Contents) (table : Text) : List Row :=
  ((tables.get? table).map fun l => (contents table).map l.row).getD []

/-- The row of the catalog for a table that a statement made. -/
def listing (table statement : Text) : Row :=
  .ofList [("type".toList, .text "table".toList), ("name".toList, .text table),
    ("tbl_name".toList, .text table), ("sql".toList, .text statement)]

/-- The catalog of tables made by `made`. -/
def catalog (tables : OrderedMap Layout) (made : Text → Text) : List Row :=
  tables.keys.map fun table => listing table (made table)

/-! ## Connections -/

section Stores

variable {σ : Type} {b : Backend σ} {made : Text → Text} {Holds : Contents → σ → Prop}

/-- Whether a connection is to a database with these tables, where `Holds` says what is stored. -/
structure Stores (b : Backend σ) (tables : OrderedMap Layout) (made : Text → Text)
    (Holds : Contents → σ → Prop) : Prop where
  begins : ∀ contents, b.Begins (Holds contents)
  commits : ∀ contents, b.Commits (Holds contents)
  listed : ∀ contents c, Holds contents c →
    ∃ c', b.submit Catalog.query c = (.ok (catalog tables made), c') ∧ Holds contents c'
  selected : ∀ contents c, Holds contents c → ∀ table ∈ tables.keys,
    ∃ c', b.submit (Catalog.tableQuery table) c = (.ok (answer tables contents table), c') ∧
      Holds contents c'
  inserted : ∀ contents c, Holds contents c → ∀ statement table columns part,
    Insertion.read? statement = some ⟨table, columns, [part]⟩ →
    ∀ l ∈ tables.get? table, (∀ column ∈ columns, column ∈ l.columns) →
    ∃ rows c', b.submit statement c = (.ok rows, c') ∧
      Holds (contents.append table (Insertion.row columns part)) c'

theorem tableNames_catalog (tables : OrderedMap Layout) (made : Text → Text) :
    Catalog.tableNames (catalog tables made) = tables.keys := by
  rw [Catalog.tableNames, catalog, List.filterMap_map]
  exact List.filterMap_some

/-- Such a database can be read. -/
theorem Stores.serves (h : Stores b tables made Holds) (contents : Contents) :
    Walk.Serves b (Holds contents) (catalog tables made) (answer tables contents) where
  begins := h.begins contents
  commits := h.commits contents
  listed := h.listed contents
  table := by
    intro table htable c hc
    rw [tableNames_catalog] at htable
    exact h.selected contents c hc table htable

end Stores

/-! ## A connection for all tables -/

/-- The table that a statement selects everything from. -/
def selection? (statement : Text) : Option Text :=
  match Token.tokens statement with
  | some [select, .mark '*', preposition, name] =>
    if select = Insertion.keyword "SELECT" ∧ preposition = Insertion.keyword "FROM" then name.name?
    else none
  | _ => none

/-- A connection that keeps no account of transactions. -/
def connection (tables : OrderedMap Layout) (made : Text → Text) : Connection Contents where
  inTransaction _ := false
  control _ contents := (.ok (), contents)
  submit statement contents :=
    let refused := (.error (.rejected "no such statement".toList), contents)
    match Insertion.read? statement, selection? statement with
    | some ⟨table, columns, [part]⟩, _ =>
      match tables.get? table with
      | some l =>
        if columns.all l.columns.contains then
          (.ok [], contents.append table (Insertion.row columns part))
        else refused
      | none => refused
    | _, some table => (.ok (answer tables contents table), contents)
    | _, none =>
      if statement = Catalog.query then (.ok (catalog tables made), contents) else refused

theorem tokens_tableQuery (table : Text) : Token.tokens (Catalog.tableQuery table) =
    some [Insertion.keyword "SELECT", .mark '*', Insertion.keyword "FROM", Token.ofName table] :=
  Token.tokens_phrase "SELECT * FROM ".toList
    [Insertion.keyword "SELECT", .mark '*', Insertion.keyword "FROM"] (by decide)
    (Token.tokens_escape table)

theorem selection?_tableQuery (table : Text) :
    selection? (Catalog.tableQuery table) = some table := by
  rw [selection?, tokens_tableQuery]
  simp

theorem read?_tableQuery (table : Text) :
    Insertion.read? (Catalog.tableQuery table) = none := by
  rw [Insertion.read?, tokens_tableQuery]
  rfl

theorem stores_connection (tables : OrderedMap Layout) (made : Text → Text) :
    Stores (.engine (connection tables made)) tables made Eq where
  begins := by
    rintro contents _ rfl _
    exact ⟨contents, rfl, rfl⟩
  commits := by
    rintro contents _ rfl _
    exact ⟨contents, rfl, rfl⟩
  listed := by
    rintro contents _ rfl
    refine ⟨contents, ?_, rfl⟩
    have hread : Insertion.read? Catalog.query = none := by decide +kernel
    have hselection : selection? Catalog.query = none := by decide +kernel
    show (connection tables made).submit _ _ = _
    simp only [connection, hread, hselection, if_true]
  selected := by
    rintro contents _ rfl table -
    refine ⟨contents, ?_, rfl⟩
    show (connection tables made).submit _ _ = _
    simp only [connection, read?_tableQuery, selection?_tableQuery]
  inserted := by
    rintro contents _ rfl statement table columns part hread l hl hcolumns
    refine ⟨[], _, ?_, rfl⟩
    show (connection tables made).submit _ _ = _
    have hall : columns.all l.columns.contains = true := by simpa using hcolumns
    simp only [connection, hread, Option.mem_def.mp hl, hall, if_true]

end Database
end SqlInterchange
