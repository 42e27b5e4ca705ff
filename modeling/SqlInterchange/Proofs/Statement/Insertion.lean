import Mathlib.Data.Multiset.Dedup
import SqlInterchange.Proofs.OrderedMap
import SqlInterchange.Proofs.Statement.Token

/-! # What an insert inserts

A compiled insert, read as a database reads it.  Its tokens name a table and columns and give one
or more parts, each a selection of as many values as there are columns; the parts are united, so
that of equal parts one is left, and every part that is left is inserted as a row, which has
nothing in the columns that are not named.

The insert of a batch is read as the batch: its table, the columns of its first row in their order,
and one part for each row, with the values of the row in the order of the columns
(`read?_renderInsert`).
-/
namespace SqlInterchange

open Token

/-- An insert, as it is read. -/
structure Insertion where
  /-- The table that gets the rows. -/
  table : Text
  /-- The columns that the parts give values for. -/
  columns : List Text
  /-- The united parts, each with its values in the order of the columns. -/
  parts : List (List Cell)

namespace Insertion

/-! ## Reading -/

/-- A word that is part of statements. -/
abbrev keyword (word : String) : Token := .word word.toList

/-- The words that an insert starts with. -/
def opening : List Token :=
  [keyword "INSERT", keyword "OR", keyword "REPLACE", keyword "INTO"]

/-- The names up to a closing parenthesis, and the tokens behind it. -/
def columns? : List Token → Option (List Text × List Token)
  | t :: .mark ')' :: rest => t.name?.map fun name => ([name], rest)
  | t :: .mark ',' :: rest =>
    t.name?.bind fun name => (columns? rest).map fun columns => (name :: columns.1, columns.2)
  | _ => none

/-- The tokens without the names that values are given in passing. -/
def unaliased : List Token → List Token
  | [] => []
  | [t] => [t]
  | t :: name :: rest =>
    if t = keyword "AS" then unaliased rest else t :: unaliased (name :: rest)

/-- The parts of a union. -/
def parts? : List Token → Option (List (List Cell))
  | [] => none
  | [t] => t.cell?.map fun cell => [[cell]]
  | [_, _] => none
  | t :: sign :: next :: rest =>
    t.cell?.bind fun cell =>
      if sign = .mark ',' then (parts? (next :: rest)).map (·.modifyHead (cell :: ·))
      else if sign = keyword "UNION" ∧ next = keyword "SELECT" then
        (parts? rest).map ([cell] :: ·)
      else none

/-- The insert that tokens make. Every part must have a value for every column. -/
def ofTokens? (ts : List Token) : Option Insertion :=
  match ts.dropPrefix? (opening) with
  | some (name :: .mark '(' :: ts) =>
    match name.name?, columns? ts with
    | some table, some (columns, select :: ts) =>
      if select = keyword "SELECT" then
        (parts? (unaliased ts)).bind fun parts =>
          if parts.all (·.length == columns.length) then some ⟨table, columns, parts⟩ else none
      else none
    | _, _ => none
  | _ => none

/-- The insert that a statement is, if it is one. -/
def read? (statement : Text) : Option Insertion := (tokens statement).bind ofTokens?

/-! ## Rows -/

/-- The row that a part makes: nothing in the columns that are not named. -/
def row (columns : List Text) (part : List Cell) (column : Text) : Cell :=
  ((columns.zip part).lookup column).join

/-- The rows that are inserted, one for each part that is left in the union. -/
def rows (i : Insertion) : List (Text → Cell) := i.parts.dedup.map (row i.columns)

end Insertion

/-! ## The tokens of an insert -/

namespace RowStatement

open Insertion

/-- The cells of a row in the order of some columns. -/
def cells (columns : List Text) (row : Row) : List Cell :=
  columns.map fun column => Literal.content? (cell row column)

/-- The tokens of the values of a row. -/
def cellTokens (part : List Cell) : List Token := listed (part.map ([ofCell ·]))

/-- The tokens of the values of a row, each with the name of its column. -/
def aliasTokens (row : Row) : List Token :=
  listed (row.entries.map fun field =>
    [ofCell (Literal.content? field.2), keyword "AS", ofName field.1])

/-- The tokens of a further part. -/
def unionTokens (part : List Cell) : List Token :=
  keyword "UNION" :: keyword "SELECT" :: cellTokens part

theorem tokens_columnList (columns : List Text) :
    tokens (columnList columns) = some (listed (columns.map ([ofName ·]))) :=
  tokens_list tokens_escape columns

theorem tokens_projection (row : Row) : tokens (projection row) = some (aliasTokens row) := by
  refine tokens_list (fun field => ?_) row.entries
  have has := tokens_phrase " AS ".toList [keyword "AS"] (by decide) (tokens_escape field.1)
  have hvalue := tokens_append (tokens_render field.2) has (boundary_cons (by decide) (by decide) _)
  rw [← List.append_assoc] at hvalue
  exact hvalue

theorem tokens_unionPart (columns : List Text) (row : Row) :
    tokens (unionPart columns row) = some (unionTokens (cells columns row)) := by
  have hlist := tokens_list (fun column => tokens_render (cell row column)) columns
  have hcells : columns.map (fun column => [ofCell (Literal.content? (cell row column))]) =
      (cells columns row).map ([ofCell ·]) := by
    rw [cells, List.map_map]
    rfl
  rw [hcells] at hlist
  exact tokens_phrase " UNION SELECT ".toList [keyword "UNION", keyword "SELECT"] (by decide) hlist

theorem tokens_unionParts (columns : List Text) (rows : List Row) {s : Text} {ts : List Token}
    (hs : tokens s = some ts) : tokens (s ++ rows.flatMap (unionPart columns)) =
      some (ts ++ rows.flatMap fun row => unionTokens (cells columns row)) := by
  induction rows generalizing s ts with
  | nil => simpa using hs
  | cons row rows ih =>
    have hpart := tokens_append hs (tokens_unionPart columns row)
      (boundary_cons (by decide) (by decide) _)
    have hrest := ih hpart
    rw [List.append_assoc, List.append_assoc] at hrest
    exact hrest

/-- The tokens of an insert. -/
theorem tokens_renderInsert (table : Text) (b : Batch) :
    tokens (renderInsert table b) = some (opening ++ ([ofName table] ++
      (.mark '(' :: listed (b.first.keys.map ([ofName ·])) ++ ([.mark ')', keyword "SELECT"] ++
        (aliasTokens b.first ++
          b.others.flatMap fun row => unionTokens (cells b.first.keys row)))))) := by
  have hrows := tokens_unionParts b.first.keys b.others (tokens_projection b.first)
  have hselect := tokens_phrase ") SELECT ".toList [.mark ')', keyword "SELECT"] (by decide) hrows
  have hcolumns : tokens ('(' :: columnList b.first.keys) =
      some (.mark '(' :: listed (b.first.keys.map ([ofName ·]))) :=
    tokens_phrase ['('] [.mark '('] (by decide) (tokens_columnList b.first.keys)
  have hbody := tokens_append hcolumns hselect (boundary_cons (by decide) (by decide) _)
  have htable := tokens_append (tokens_escape table) hbody
    (boundary_cons (by decide) (by decide) _)
  have hinsert := tokens_phrase "INSERT OR REPLACE INTO ".toList opening (by decide) htable
  unfold renderInsert
  simpa only [List.append_assoc] using hinsert

end RowStatement

/-! ## Reading an insert -/

namespace Insertion

open RowStatement

theorem columns?_listed {columns : List Text} (hne : columns ≠ []) (rest : List Token) :
    columns? (listed (columns.map ([ofName ·])) ++ .mark ')' :: rest) = some (columns, rest) := by
  induction columns with
  | nil => exact absurd rfl hne
  | cons column columns ih =>
    cases columns with
    | nil => simp [columns?]
    | cons next columns =>
      have hrest := ih (List.cons_ne_nil _ _)
      simp only [List.map_cons] at hrest ⊢
      rw [listed_cons_cons, List.append_assoc, List.singleton_append, List.cons_append]
      simp [columns?, hrest]

/-- The token of a value is none of the words between values. -/
theorem ofCell_ne_keyword (cell : Cell) {word : String} (h : word.toList ≠ "NULL".toList) :
    ofCell cell ≠ keyword word := by
  cases cell with
  | none => exact fun he => h (Token.word.inj he).symm
  | some t => exact Token.noConfusion

theorem unaliased_cons {t : Token} (h : t ≠ keyword "AS") (ts : List Token) :
    unaliased (t :: ts) = t :: unaliased ts := by
  cases ts with
  | nil => rfl
  | cons u ts => rw [unaliased, if_neg h]

/-- Where no name is given in passing nothing is left out. -/
theorem unaliased_append {ts : List Token} (h : keyword "AS" ∉ ts) (rest : List Token) :
    unaliased (ts ++ rest) = ts ++ unaliased rest := by
  induction ts with
  | nil => rfl
  | cons t ts ih =>
    rw [List.mem_cons, not_or] at h
    rw [List.cons_append, unaliased_cons (Ne.symm h.1), ih h.2, List.cons_append]

/-- The values of a row are what is left of them with their names. -/
theorem unaliased_fields {fields : List (Text × Value)} (rest : List Token) :
    unaliased (listed (fields.map fun field =>
      [ofCell (Literal.content? field.2), keyword "AS", ofName field.1]) ++ rest) =
      listed (fields.map fun field => [ofCell (Literal.content? field.2)]) ++ unaliased rest := by
  have hvalue (v : Value) (name : Text) (rest : List Token) :
      unaliased (ofCell (Literal.content? v) :: keyword "AS" :: ofName name :: rest) =
        ofCell (Literal.content? v) :: unaliased rest := by
    rw [unaliased_cons (ofCell_ne_keyword _ (by decide)), unaliased, if_pos rfl]
  induction fields with
  | nil => rfl
  | cons field fields ih =>
    cases fields with
    | nil => simpa using hvalue field.2 field.1 rest
    | cons next fields =>
      simp only [List.map_cons] at ih ⊢
      rw [listed_cons_cons, listed_cons_cons]
      simp only [List.cons_append, List.nil_append]
      rw [hvalue, unaliased_cons (by decide), ih]

theorem parts?_comma (cell : Cell) {ts : List Token} (hne : ts ≠ []) :
    parts? (ofCell cell :: .mark ',' :: ts) = (parts? ts).map (·.modifyHead (cell :: ·)) := by
  cases ts with
  | nil => exact absurd rfl hne
  | cons t ts => simp [parts?]

theorem parts?_union (cell : Cell) (ts : List Token) :
    parts? (ofCell cell :: keyword "UNION" :: keyword "SELECT" :: ts) =
      (parts? ts).map ([cell] :: ·) := by
  simp [parts?]

theorem cellTokens_cons_cons (cell next : Cell) (part : List Cell) :
    cellTokens (cell :: next :: part) = ofCell cell :: .mark ',' :: cellTokens (next :: part) :=
  listed_cons_cons _ _ _

theorem cellTokens_ne_nil {part : List Cell} (hne : part ≠ []) : cellTokens part ≠ [] := by
  cases part with
  | nil => exact absurd rfl hne
  | cons cell part =>
    cases part with
    | nil => simp [cellTokens]
    | cons next part => simp [cellTokens_cons_cons]

/-- The last part of a union. -/
theorem parts?_cellTokens {part : List Cell} (hne : part ≠ []) :
    parts? (cellTokens part) = some [part] := by
  induction part with
  | nil => exact absurd rfl hne
  | cons cell part ih =>
    cases part with
    | nil => simp [cellTokens, parts?]
    | cons next part =>
      rw [cellTokens_cons_cons, parts?_comma cell (cellTokens_ne_nil (List.cons_ne_nil _ _)),
        ih (List.cons_ne_nil _ _)]
      rfl

/-- A part of a union before another one. -/
theorem parts?_cellTokens_append {part : List Cell} (hne : part ≠ []) (ts : List Token) :
    parts? (cellTokens part ++ keyword "UNION" :: keyword "SELECT" :: ts) =
      (parts? ts).map (part :: ·) := by
  induction part with
  | nil => exact absurd rfl hne
  | cons cell part ih =>
    cases part with
    | nil => simpa [cellTokens] using parts?_union cell ts
    | cons next part =>
      rw [cellTokens_cons_cons, List.cons_append, List.cons_append, parts?_comma cell (by simp),
        ih (List.cons_ne_nil _ _), Option.map_map]
      rfl

theorem parts?_flatMap {part : List Cell} (hne : part ≠ []) (parts : List (List Cell))
    (hparts : ∀ p ∈ parts, p ≠ []) :
    parts? (cellTokens part ++ parts.flatMap unionTokens) = some (part :: parts) := by
  induction parts generalizing part with
  | nil => simpa using parts?_cellTokens hne
  | cons next parts ih =>
    obtain ⟨hnext, hparts⟩ := List.forall_mem_cons.mp hparts
    rw [List.flatMap_cons, unionTokens, List.cons_append, List.cons_append,
      parts?_cellTokens_append hne, ih hnext hparts]
    rfl

/-! ## The insert of a batch -/

theorem cells_keys (row : Row) :
    cells row.keys row = row.entries.map fun field => Literal.content? field.2 := by
  rw [cells, OrderedMap.keys, List.map_map]
  refine List.map_congr_left fun field hfield => ?_
  rw [Function.comp_apply, cell, row.get?_of_mem hfield]
  rfl

/-- Values are no names. -/
theorem keyword_not_mem_cellTokens (part : List Cell) : keyword "AS" ∉ cellTokens part := by
  induction part with
  | nil => exact List.not_mem_nil
  | cons cell part ih =>
    have hne : keyword "AS" ≠ ofCell cell := (ofCell_ne_keyword cell (by decide)).symm
    cases part with
    | nil => simpa [cellTokens] using hne
    | cons next part =>
      rw [cellTokens_cons_cons, List.mem_cons, List.mem_cons, not_or, not_or]
      exact ⟨hne, Token.noConfusion, ih⟩

theorem unaliased_unionTokens (parts : List (List Cell)) :
    unaliased (parts.flatMap unionTokens) = parts.flatMap unionTokens := by
  have hnone : keyword "AS" ∉ parts.flatMap unionTokens := by
    rw [List.mem_flatMap]
    rintro ⟨part, -, hpart⟩
    rw [unionTokens, List.mem_cons, List.mem_cons] at hpart
    rcases hpart with hpart | hpart | hpart
    · exact absurd hpart (by decide)
    · exact absurd hpart (by decide)
    · exact keyword_not_mem_cellTokens part hpart
  simpa [unaliased] using unaliased_append hnone []

/-- **The insert of a batch is read as the batch.** -/
theorem read?_renderInsert (table : Text) {b : Batch} (h : b.first.entries ≠ []) :
    read? (renderInsert table b) =
      some ⟨table, b.first.keys, b.rows.map (cells b.first.keys)⟩ := by
  have hkeys : b.first.keys ≠ [] := by simpa [OrderedMap.keys] using h
  have hcells (row : Row) : cells b.first.keys row ≠ [] := by simpa [cells] using hkeys
  have hbody : unaliased (aliasTokens b.first ++
        b.others.flatMap fun row => unionTokens (cells b.first.keys row)) =
      cellTokens (cells b.first.keys b.first) ++
        (b.others.map (cells b.first.keys)).flatMap unionTokens := by
    rw [aliasTokens, unaliased_fields, cells_keys, cellTokens, List.map_map,
      ← unaliased_unionTokens, List.flatMap_map]
    rfl
  have hparts := parts?_flatMap (hcells b.first) (b.others.map (cells b.first.keys))
    fun part hpart => by
      obtain ⟨row, -, rfl⟩ := List.mem_map.mp hpart
      exact hcells row
  have hlengths : ((cells b.first.keys b.first) :: b.others.map (cells b.first.keys)).all
      (·.length == b.first.keys.length) := by simp [cells]
  rw [read?, tokens_renderInsert, Option.bind_some, ofTokens?,
    List.dropPrefix?_append_of_beq _ (by decide)]
  have hcolumns := columns?_listed hkeys (keyword "SELECT" :: (aliasTokens b.first ++
    b.others.flatMap fun row => unionTokens (cells b.first.keys row)))
  simp only [List.cons_append, List.nil_append, name?_ofName, hcolumns, hbody, hparts]
  rw [if_pos trivial, Option.bind_some, if_pos hlengths]
  rfl

end Insertion
end SqlInterchange
