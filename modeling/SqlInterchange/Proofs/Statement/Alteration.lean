import SqlInterchange.Proofs.Statement.Insertion
import SqlInterchange.Proofs.Statement.Written

/-! # What updates and deletes say

An update or delete, read as a database reads it.  Its tokens name a table; an update gives columns
their values, with commas between them; then come the tests of the rows that are meant, each an
equation or a test that there is no value, with `AND` between them, or there are none.  Every part
is three tokens, whatever characters a name or a value has, so words, commas and signs inside quotes
are not taken for the statement's own.

The statement of an entry of an accepted document is read as the entry
(`alterations_say_their_entries`): an entry deletes by a test at least, and a test that a column
equals nothing, which no row passes, is never written.
-/
namespace SqlInterchange

open Token
open Insertion (keyword)

/-- A test of a row, as it is read. -/
inductive Test where
  /-- The column has no value. -/
  | isNull (column : Text)
  /-- The column has the value of the cell; what a cell without a value is equal to is nothing. -/
  | equals (column : Text) (cell : Cell)
deriving DecidableEq

/-- The column of a test and the cell that it is compared with. -/
def Test.field : Test → Text × Cell
  | isNull column => (column, none)
  | equals column cell => (column, cell)

/-- An update or delete, as it is read, the tests being there if the statement has some. -/
inductive Alteration where
  /-- The rows that pass the tests get values in some columns. -/
  | update (table : Text) (assignments : List (Text × Cell)) (tests? : Option (List Test))
  /-- The rows that pass the tests are removed. -/
  | delete (table : Text) (tests? : Option (List Test))
deriving DecidableEq

namespace Alteration

/-- The tests of the rows that are meant. -/
def tests? : Alteration → Option (List Test)
  | update _ _ tests? | delete _ tests? => tests?

/-! ## Reading -/

/-- Parts of three tokens each with a separator between neighbours, and the tokens behind them. -/
def series? {α : Type} (separator : Token) (part? : Token → Token → Token → Option α) :
    List Token → Option (List α × List Token)
  | a :: b :: c :: d :: rest =>
    (part? a b c).bind fun part =>
      if d = separator then
        (series? separator part? rest).map fun (parts, rest) => (part :: parts, rest)
      else some ([part], d :: rest)
  | [a, b, c] => (part? a b c).map fun part => ([part], [])
  | _ => none

/-- A column and the value it gets. -/
def assigned? (name sign value : Token) : Option (Text × Cell) :=
  if sign = .mark '=' then name.name?.bind fun column => value.cell?.map (column, ·) else none

/-- A test of a column. -/
def test? (name sign value : Token) : Option Test :=
  name.name?.bind fun column =>
    if sign = .mark '=' then value.cell?.map (.equals column)
    else if sign = keyword "IS" ∧ value = keyword "NULL" then some (.isNull column)
    else none

/-- The tests at the end of a statement, if it has some. -/
def where? : List Token → Option (Option (List Test))
  | [] => some none
  | t :: ts =>
    if t = keyword "WHERE" then
      (series? (keyword "AND") test? ts).bind fun (tests, rest) =>
        if rest = [] then some (some tests) else none
    else none

/-- The rest of an update. -/
def update? : List Token → Option Alteration
  | name :: set :: ts =>
    if set = keyword "SET" then
      name.name?.bind fun table => (series? (.mark ',') assigned? ts).bind fun (assignments, ts) =>
        (where? ts).map (.update table assignments)
    else none
  | _ => none

/-- The rest of a delete. -/
def delete? : List Token → Option Alteration
  | preposition :: name :: ts =>
    if preposition = keyword "FROM" then
      name.name?.bind fun table => (where? ts).map (.delete table)
    else none
  | _ => none

/-- The update or delete that tokens make. -/
def ofTokens? : List Token → Option Alteration
  | [] => none
  | t :: ts =>
    if t = keyword "UPDATE" then update? ts
    else if t = keyword "DELETE" then delete? ts
    else none

/-- The update or delete that a statement is, if it is one. -/
def read? (statement : Text) : Option Alteration := (tokens statement).bind ofTokens?

end Alteration

/-! ## The tokens of updates and deletes -/

namespace RowStatement

/-- The tokens of an assignment. -/
def assignmentTokens (field : Text × Value) : List Token :=
  [ofName field.1, .mark '=', ofCell (Literal.content? field.2)]

/-- The tokens of a condition. -/
def conditionTokens (field : Text × Value) : List Token :=
  match field.2 with
  | .null => [ofName field.1, keyword "IS", keyword "NULL"]
  | _ => assignmentTokens field

/-- The tokens of the conditions of a row, and of the word before them. -/
def whereTokens (matching : Row) : List Token :=
  keyword "WHERE" :: [keyword "AND"].intercalate (matching.entries.map conditionTokens)

theorem tokens_assignment (field : Text × Value) :
    tokens (assignment field) = some (assignmentTokens field) := by
  have hvalue := tokens_phrase ['='] [.mark '='] (by decide) (tokens_render field.2)
  exact tokens_append (tokens_escape field.1) hvalue (boundary_cons (by decide) (by decide) _)

theorem tokens_condition (field : Text × Value) :
    tokens (condition field) = some (conditionTokens field) := by
  obtain ⟨column, value⟩ := field
  cases value with
  | null =>
    have hnull : tokens " IS NULL".toList = some [keyword "IS", keyword "NULL"] := by decide
    exact tokens_append (tokens_escape column) hnull (boundary_cons (by decide) (by decide) _)
  | bool | int | float | text | bytes | absent | list | object => exact tokens_assignment _

theorem tokens_where (matching : Row) :
    tokens (" WHERE ".toList ++ conditions matching) = some (whereTokens matching) :=
  tokens_phrase " WHERE ".toList [keyword "WHERE"] (by decide)
    (tokens_joinWith " AND " [keyword "AND"] (by decide)
      (fun _ => boundary_cons (by decide) (by decide) _) tokens_condition matching.entries)

theorem tokens_renderUpdate (table : Text) (assignments matching : Row) :
    tokens (renderUpdate table assignments matching) = some ([keyword "UPDATE"] ++
      ([ofName table] ++ ([keyword "SET"] ++ (listed (assignments.entries.map assignmentTokens) ++
        if matching.isEmpty then [] else whereTokens matching)))) := by
  have hwhere : tokens (if matching.isEmpty then [] else " WHERE ".toList ++ conditions matching) =
      some (if matching.isEmpty then [] else whereTokens matching) := by
    split
    · rfl
    · exact tokens_where matching
  have hboundary : Boundary
      (if matching.isEmpty then [] else " WHERE ".toList ++ conditions matching) := by
    split
    · simp [Boundary]
    · exact boundary_cons (by decide) (by decide) _
  have hset := tokens_append (tokens_list tokens_assignment assignments.entries) hwhere hboundary
  have hassignments := tokens_phrase " SET ".toList [keyword "SET"] (by decide) hset
  have htable := tokens_append (tokens_escape table) hassignments
    (boundary_cons (by decide) (by decide) _)
  have hupdate := tokens_phrase "UPDATE ".toList [keyword "UPDATE"] (by decide) htable
  unfold renderUpdate
  simpa only [List.append_assoc] using hupdate

theorem tokens_renderDelete (table : Text) (matching : Row) :
    tokens (renderDelete table matching) =
      some ([keyword "DELETE", keyword "FROM"] ++ ([ofName table] ++ whereTokens matching)) := by
  have htable := tokens_append (tokens_escape table) (tokens_where matching)
    (boundary_cons (by decide) (by decide) _)
  have hdelete := tokens_phrase "DELETE FROM ".toList [keyword "DELETE", keyword "FROM"]
    (by decide) htable
  unfold renderDelete
  simpa only [List.append_assoc] using hdelete

end RowStatement

/-! ## Reading updates and deletes -/

namespace Alteration

open RowStatement

theorem series?_intercalate {α β : Type} {separator : Token}
    {part? : Token → Token → Token → Option α} {f : β → List Token} {g : β → α}
    (h : ∀ b, ∃ s t u, f b = [s, t, u] ∧ part? s t u = some (g b)) {bs : List β} (hne : bs ≠ [])
    {rest : List Token} (hrest : ∀ t ∈ rest.head?, t ≠ separator) :
    series? separator part? ([separator].intercalate (bs.map f) ++ rest) =
      some (bs.map g, rest) := by
  induction bs with
  | nil => exact absurd rfl hne
  | cons b bs ih =>
    obtain ⟨s, t, u, hf, hg⟩ := h b
    cases bs with
    | nil =>
      cases rest with
      | nil => simp [series?, hf, hg]
      | cons v rest => simp [series?, hf, hg, hrest v rfl]
    | cons next bs =>
      have hnext := ih (List.cons_ne_nil _ _)
      simp only [List.map_cons] at hnext ⊢
      rw [List.intercalate_cons_cons, hf]
      simp [series?, hg, hnext]

/-- A column and the text of its value, as a row has them. -/
def cellOf (field : Text × Value) : Text × Cell := (field.1, Literal.content? field.2)

/-- The test that a row has a value: nothing equals null, so null has a test of its own. -/
def testOf (field : Text × Value) : Test :=
  match field.2 with
  | .null => .isNull field.1
  | _ => .equals field.1 (Literal.content? field.2)

theorem series?_assignments {fields : List (Text × Value)} (hne : fields ≠ []) {rest : List Token}
    (hrest : ∀ t ∈ rest.head?, t ≠ .mark ',') :
    series? (.mark ',') assigned? (listed (fields.map assignmentTokens) ++ rest) =
      some (fields.map cellOf, rest) := by
  refine series?_intercalate (fun field => ⟨_, _, _, rfl, ?_⟩) hne hrest
  simp [assigned?, cellOf]

theorem series?_conditions {fields : List (Text × Value)} (hne : fields ≠ []) :
    series? (keyword "AND") test? ([keyword "AND"].intercalate (fields.map conditionTokens)) =
      some (fields.map testOf, []) := by
  have htest (field : Text × Value) :
      ∃ s t u, conditionTokens field = [s, t, u] ∧ test? s t u = some (testOf field) := by
    obtain ⟨column, value⟩ := field
    cases value with
    | null => exact ⟨_, _, _, rfl, by simp [test?, testOf]⟩
    | bool | int | float | text | bytes | absent | list | object =>
      exact ⟨_, _, _, rfl, by simp [test?, testOf]⟩
  have hend : ∀ t ∈ ([] : List Token).head?, t ≠ keyword "AND" := by simp
  have hall := series?_intercalate htest hne hend
  rwa [List.append_nil] at hall

theorem where?_whereTokens {matching : Row} (h : matching.entries ≠ []) :
    where? (whereTokens matching) = some (some (matching.entries.map testOf)) := by
  rw [whereTokens, where?, if_pos rfl, series?_conditions h]
  rfl

/-- The tests that a row has the values given, if some are given. -/
def testsOf (matching : Row) : Option (List Test) :=
  if matching.isEmpty then none else some (matching.entries.map testOf)

theorem testsOf_of_ne_nil {matching : Row} (h : matching.entries ≠ []) :
    testsOf matching = some (matching.entries.map testOf) :=
  if_neg (by simpa [OrderedMap.isEmpty] using h)

theorem testsOf_eq_none_iff {matching : Row} : testsOf matching = none ↔ matching.entries = [] := by
  simp [testsOf, OrderedMap.isEmpty]

theorem where?_optional (matching : Row) :
    where? (if matching.isEmpty then [] else whereTokens matching) = some (testsOf matching) := by
  rw [testsOf]
  split
  · rfl
  · next hne => exact where?_whereTokens (by simpa [OrderedMap.isEmpty] using hne)

/-- **An update is read as the update**, with tests if it has conditions. -/
theorem read?_renderUpdate (table : Text) {assignments : Row} (h : assignments.entries ≠ [])
    (matching : Row) : read? (renderUpdate table assignments matching) =
      some (.update table (assignments.entries.map cellOf) (testsOf matching)) := by
  have hrest : ∀ t ∈ (if matching.isEmpty then [] else whereTokens matching).head?,
      t ≠ .mark ',' := by
    intro t ht
    split at ht
    · cases ht
    · obtain rfl : keyword "WHERE" = t := Option.some.inj ht
      exact Token.noConfusion
  have hread : update? (ofName table :: keyword "SET" ::
      (listed (assignments.entries.map assignmentTokens) ++
        if matching.isEmpty then [] else whereTokens matching)) =
      some (.update table (assignments.entries.map cellOf) (testsOf matching)) := by
    rw [update?, if_pos rfl, name?_ofName, Option.bind_some, series?_assignments h hrest,
      Option.bind_some]
    simp only [where?_optional, Option.map_some]
  rw [read?, tokens_renderUpdate, Option.bind_some]
  exact hread

/-- **A delete is read as the delete.** -/
theorem read?_renderDelete (table : Text) {matching : Row} (h : matching.entries ≠ []) :
    read? (renderDelete table matching) = some (.delete table (testsOf matching)) := by
  have hread : delete? (keyword "FROM" :: ofName table :: whereTokens matching) =
      some (.delete table (testsOf matching)) := by
    rw [delete?, if_pos rfl, name?_ofName, Option.bind_some, where?_whereTokens h,
      testsOf_of_ne_nil h]
    rfl
  rw [read?, tokens_renderDelete, Option.bind_some]
  exact hread

/-! ## What tests tell -/

/-- A test tells the column and the text of the value. -/
theorem field_testOf (field : Text × Value) : (testOf field).field = cellOf field := by
  obtain ⟨column, value⟩ := field
  cases value <;> rfl

/-- Tests tell the columns and the texts of the values, in their order. -/
theorem cells_of_testsOf {matching other : Row} (h : testsOf matching = testsOf other) :
    matching.entries.map cellOf = other.entries.map cellOf := by
  have htold (row : Row) : ((testsOf row).getD []).map Test.field = row.entries.map cellOf := by
    by_cases hrow : row.entries = []
    · rw [testsOf_eq_none_iff.mpr hrow, hrow]
      rfl
    · rw [testsOf_of_ne_nil hrow, Option.getD_some, List.map_map]
      exact List.map_congr_left fun field _ => field_testOf field
  rw [← htold matching, h, htold other]

/-- A scalar is compared with its text, or tested to be null. -/
theorem testOf_ne {field : Text × Value} (h : field.2.isScalar) (column : Text) :
    testOf field ≠ .equals column none := by
  obtain ⟨name, value⟩ := field
  cases value with
  | null => exact Test.noConfusion
  | bool b => cases b <;> simp [testOf, Literal.content?]
  | int | float | text => simp [testOf, Literal.content?]
  | bytes | absent | list | object => cases h

end Alteration

/-! ## The entries of a document -/

/-- An entry of a document that alters rows of a table. -/
inductive RowChange where
  /-- Rows get other values. -/
  | update (table : Text) (u : Update)
  /-- Rows are removed. -/
  | delete (table : Text) (matching : Row)

namespace RowChange

/-- The table of an entry. -/
def table : RowChange → Text
  | update table _ | delete table _ => table

/-- The statement of an entry. -/
def statement : RowChange → Text
  | update table u => RowStatement.renderUpdate table u.assignments u.conditions
  | delete table matching => RowStatement.renderDelete table matching

/-- What an entry says: its fields in their order, each with the text of its value. -/
def alteration : RowChange → Alteration
  | update table u =>
    .update table (u.assignments.entries.map Alteration.cellOf) (Alteration.testsOf u.conditions)
  | delete table matching => .delete table (Alteration.testsOf matching)

/-- Whether entries have the same table, columns and texts of values, in the same order. -/
inductive Alike : RowChange → RowChange → Prop
  | update (table : Text) {u v : Update}
    (hset : u.assignments.entries.map Alteration.cellOf =
      v.assignments.entries.map Alteration.cellOf)
    (hwhere : u.conditions.entries.map Alteration.cellOf =
      v.conditions.entries.map Alteration.cellOf) : Alike (.update table u) (.update table v)
  | delete (table : Text) {matching other : Row}
    (h : matching.entries.map Alteration.cellOf = other.entries.map Alteration.cellOf) :
    Alike (.delete table matching) (.delete table other)

/-- Whether an entry has passed the checks. -/
def IsChecked : RowChange → Prop
  | update _ u => Document.IsFilled u.assignments ∧ ∀ f ∈ u.conditions.entries, f.2.isScalar
  | delete _ matching => Document.IsFilled matching

variable {e e' : RowChange}

theorem alike_of_alteration (h : e.alteration = e'.alteration) : e.Alike e' := by
  cases e with
  | update table u =>
    cases e' with
    | update table' u' =>
      obtain ⟨rfl, hset, hwhere⟩ := Alteration.update.inj h
      exact .update table hset (Alteration.cells_of_testsOf hwhere)
    | delete table' matching' => cases h
  | delete table matching =>
    cases e' with
    | update table' u' => cases h
    | delete table' matching' =>
      obtain ⟨rfl, hwhere⟩ := Alteration.delete.inj h
      exact .delete table (Alteration.cells_of_testsOf hwhere)

/-- A checked entry is read off its statement. -/
theorem IsChecked.read? (h : e.IsChecked) : Alteration.read? e.statement = some e.alteration := by
  cases e with
  | update table u => exact Alteration.read?_renderUpdate table h.1.1 u.conditions
  | delete table matching => exact Alteration.read?_renderDelete table h.1

/-- A checked entry compares nothing with null. -/
theorem IsChecked.not_mem_tests (h : e.IsChecked) :
    ∀ tests ∈ e.alteration.tests?, ∀ column, Test.equals column none ∉ tests := by
  have hrow {row : Row} (hscalar : ∀ f ∈ row.entries, f.2.isScalar) :
      ∀ tests ∈ Alteration.testsOf row, ∀ column, Test.equals column none ∉ tests := by
    intro tests htests column hmem
    rw [Alteration.testsOf] at htests
    split at htests
    · cases htests
    · obtain rfl := Option.some.inj htests
      obtain ⟨field, hfield, heq⟩ := List.mem_map.mp hmem
      exact Alteration.testOf_ne (hscalar field hfield) column heq
  cases e with
  | update table u => exact hrow h.2
  | delete table matching => exact hrow h.2

end RowChange

namespace Document

/-- The entries of changes that alter rows, in the order of their statements. -/
def rowChangesOf (c : Changes) : List RowChange :=
  (c.updates.entries.flatMap fun e => e.2.map (.update e.1)) ++
    c.deletes.entries.flatMap fun e => e.2.map (.delete e.1)

/-- The entries of a document that alter rows. -/
def rowChanges (d : Document) : List RowChange := (d.changes?.map rowChangesOf).getD []

variable {d : Document} {e : RowChange}

theorem exists_changes_of_rowChanges (h : e ∈ d.rowChanges) :
    ∃ c ∈ d.changes?, e ∈ rowChangesOf c := by
  cases hc : d.changes? with
  | none => simp [rowChanges, hc] at h
  | some c => exact ⟨c, rfl, by simpa [rowChanges, hc] using h⟩

/-- The entries of an accepted document are checked. -/
theorem Accepted.isChecked (hd : d.Accepted) (h : e ∈ d.rowChanges) : e.IsChecked := by
  obtain ⟨c, hc, he⟩ := exists_changes_of_rowChanges h
  have hwell := hd.wellFormed c hc
  rcases List.mem_append.mp he with he | he
  · obtain ⟨⟨table, us⟩, hentry, he⟩ := List.mem_flatMap.mp he
    obtain ⟨u, hu, rfl⟩ := List.mem_map.mp he
    exact ⟨hwell.assignments _ hentry u hu, hwell.conditions _ hentry u hu⟩
  · obtain ⟨⟨table, rows⟩, hentry, he⟩ := List.mem_flatMap.mp he
    obtain ⟨row, hrow, rfl⟩ := List.mem_map.mp he
    exact hwell.deletes _ hentry row hrow

/-- The statement of an entry is compiled, unless its table is reserved. -/
theorem statement_mem_compile {scope : Scope} (hscope : scope.includeChanges)
    (h : e ∈ d.rowChanges) (htable : Identifier.isReserved e.table = false) :
    e.statement ∈ (d.compile scope).main := by
  obtain ⟨c, hc, he⟩ := exists_changes_of_rowChanges h
  have hin : d.changesIn scope = some c := by rw [changesIn, if_pos hscope, Option.mem_def.mp hc]
  rw [compile_eq, hin]
  refine List.mem_append_right _ ?_
  rcases List.mem_append.mp he with he | he
  · obtain ⟨⟨table, us⟩, hentry, he⟩ := List.mem_flatMap.mp he
    obtain ⟨u, hu, rfl⟩ := List.mem_map.mp he
    exact List.mem_append_left _ (List.mem_append_right _
      (mem_sectionStatements.mpr ⟨_, hentry, htable, List.mem_map_of_mem hu⟩))
  · obtain ⟨⟨table, rows⟩, hentry, he⟩ := List.mem_flatMap.mp he
    obtain ⟨row, hrow, rfl⟩ := List.mem_map.mp he
    exact List.mem_append_right _
      (mem_sectionStatements.mpr ⟨_, hentry, htable, List.mem_map_of_mem hrow⟩)

/-- **Main.** The statement of each entry that alters rows, compiled unless its table is reserved,
is read as what the entry says.  No test compares a column with null, a delete has a test, and an
update has none exactly if its entry has no conditions.  So entries of which one names another
table, other columns or other texts, or these in another order, have different statements. -/
theorem alterations_say_their_entries (hd : d.Accepted) :
    (∀ e ∈ d.rowChanges, Alteration.read? e.statement = some e.alteration) ∧
    (∀ scope : Scope, scope.includeChanges → ∀ e ∈ d.rowChanges,
      Identifier.isReserved e.table = false → e.statement ∈ (d.compile scope).main) ∧
    (∀ e ∈ d.rowChanges, ∀ tests ∈ e.alteration.tests?, ∀ column,
      Test.equals column none ∉ tests) ∧
    (∀ table matching, .delete table matching ∈ d.rowChanges →
      ∃ test tests, (RowChange.delete table matching).alteration.tests? = some (test :: tests)) ∧
    (∀ table u, .update table u ∈ d.rowChanges →
      ((RowChange.update table u).alteration.tests? = none ↔ u.conditions.entries = [])) ∧
    (∀ d' : Document, d'.Accepted → ∀ e ∈ d.rowChanges, ∀ e' ∈ d'.rowChanges,
      e.statement = e'.statement → e.Alike e') := by
  refine ⟨fun e he => (hd.isChecked he).read?, fun scope hscope e => statement_mem_compile hscope,
    fun e he => (hd.isChecked he).not_mem_tests, ?_, ?_, ?_⟩
  · intro table matching he
    have hfilled : matching.entries ≠ [] := (hd.isChecked he).1
    obtain ⟨field, fields, hfields⟩ := List.exists_cons_of_ne_nil hfilled
    refine ⟨Alteration.testOf field, fields.map Alteration.testOf, ?_⟩
    change Alteration.testsOf matching = _
    rw [Alteration.testsOf_of_ne_nil hfilled, hfields, List.map_cons]
  · exact fun table u _ => Alteration.testsOf_eq_none_iff
  · intro d' hd' e he e' he' hsame
    have hread := (hd.isChecked he).read?
    rw [hsame, (hd'.isChecked he').read?] at hread
    exact RowChange.alike_of_alteration (Option.some.inj hread).symm

/-- An update with names and texts that look like parts of a statement. -/
def wilyUpdate : Update :=
  { assignments := .ofList [("c=d".toList, .text "x, y".toList), ("set".toList, .null)]
    conditions := .ofList [("e AND f".toList, .null), ("g".toList, .text "' IS NULL".toList)] }

/-- A document with this update, and with a delete of what is not null. -/
def wily : Document :=
  { schema? := none
    changes? := some
      { inserts := .empty
        updates := .ofList [("a SET b".toList, [wilyUpdate])]
        deletes := .ofList [("a".toList, [.ofList [("b".toList, .text "NULL".toList)]])] } }

theorem wily_accepted : wily.Accepted := .ofValue wily.toValue rfl

/-- What the statements of this document say. -/
theorem wily_says_its_entries :
    wily.Accepted ∧
      Alteration.read? ("UPDATE \x60a SET b\x60 SET \x60c=d\x60='x, y', set=NULL".toList ++
          " WHERE \x60e AND f\x60 IS NULL AND g=''' IS NULL'".toList) =
        some (.update "a SET b".toList
          [("c=d".toList, some "x, y".toList), ("set".toList, none)]
          (some [.isNull "e AND f".toList, .equals "g".toList (some "' IS NULL".toList)])) ∧
      Alteration.read? "DELETE FROM a WHERE b='NULL'".toList =
        some (.delete "a".toList (some [.equals "b".toList (some "NULL".toList)])) := by
  obtain ⟨hread, -⟩ := alterations_say_their_entries wily_accepted
  refine ⟨wily_accepted, ?_, ?_⟩
  · exact hread (.update "a SET b".toList wilyUpdate) (List.mem_cons_self ..)
  · exact hread (.delete "a".toList (.ofList [("b".toList, .text "NULL".toList)]))
      (List.mem_cons_of_mem _ (List.mem_cons_self ..))

end Document
end SqlInterchange
