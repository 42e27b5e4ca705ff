import SqlInterchange.Proofs.Database
import SqlInterchange.Proofs.Export.Valid
import SqlInterchange.Proofs.Statement.Batches

/-! # Rows that were exported and inserted

A row of texts is exported with the values that its texts stand for, and without the columns that
hold the word `undefined`; if that is all of them, the row is left out.  Inserted again, it has
nothing in these columns, nor where it held the word `null`, and is otherwise the row that it was.
So its next export has all columns of its table (`recoverRow_row_stored`), and from then on every
export has the same (`row_stored_complete`).
-/
namespace SqlInterchange

open Database RowStatement
open Token (Cell)

/-! ## Cells -/

namespace Literal

/-- The word that stands for absence. -/
abbrev undefined : Text := "undefined".toList

/-- A stored text is one of four words or stands for itself. -/
theorem ofStoredText_cases (t : Text) : t = "true".toList ∨ t = "false".toList ∨
    t = "null".toList ∨ t = undefined ∨ ofStoredText t = .text t := by
  by_cases htrue : t = "true".toList
  · exact .inl htrue
  by_cases hfalse : t = "false".toList
  · exact .inr (.inl hfalse)
  by_cases hnull : t = "null".toList
  · exact .inr (.inr (.inl hnull))
  by_cases hundefined : t = undefined
  · exact .inr (.inr (.inr (.inl hundefined)))
  · refine .inr (.inr (.inr (.inr ?_)))
    rw [ofStoredText, if_neg htrue, if_neg hfalse, if_neg hnull, if_neg hundefined]

theorem recover_cellValue_eq_absent_iff (cell : Cell) :
    recover (cellValue cell) = .absent ↔ cell = some undefined := by
  cases cell with
  | none => exact ⟨fun h => (nomatch h), fun h => (nomatch h)⟩
  | some t =>
    rcases ofStoredText_cases t with rfl | rfl | rfl | rfl | htext
    · exact ⟨fun h => (nomatch h), fun h => absurd (Option.some.inj h) (by decide)⟩
    · exact ⟨fun h => (nomatch h), fun h => absurd (Option.some.inj h) (by decide)⟩
    · exact ⟨fun h => (nomatch h), fun h => absurd (Option.some.inj h) (by decide)⟩
    · exact ⟨fun _ => rfl, fun _ => rfl⟩
    · constructor
      · intro h
        cases htext.symm.trans h
      · intro h
        obtain rfl := Option.some.inj h
        cases htext

/-- Written and stored again, a cell stands for what it stood for. -/
theorem recover_cellValue_content? {cell : Cell} (h : cell ≠ some undefined) :
    recover (cellValue (content? (recover (cellValue cell)))) = recover (cellValue cell) := by
  cases cell with
  | none => rfl
  | some t =>
    rcases ofStoredText_cases t with rfl | rfl | rfl | rfl | htext
    · rfl
    · rfl
    · rfl
    · exact absurd rfl h
    · have hrecover : recover (cellValue (some t)) = .text t := htext
      rw [hrecover]
      exact htext

end Literal

/-! ## Rows of a table -/

namespace Layout

variable {l : Layout} {f g : Text → Value} {cells : Text → Cell} {column : Text}

theorem keys_rowOf (l : Layout) (f : Text → Value) : (l.rowOf f).keys = l.columns := by
  simp [rowOf, OrderedMap.keys, Function.comp_def]

theorem get?_rowOf (h : column ∈ l.columns) : (l.rowOf f).get? column = some (f column) :=
  (l.rowOf f).get?_of_mem (e := (column, f column)) (List.mem_map_of_mem h)

theorem rowOf_congr (h : ∀ column ∈ l.columns, f column = g column) : l.rowOf f = l.rowOf g := by
  refine OrderedMap.ext (List.map_congr_left fun column hcolumn => ?_)
  rw [h column hcolumn]

/-- A row with all columns of the table: with null in those that it has not. -/
def complete (l : Layout) (row : Row) : Row := l.rowOf (cell row)

/-- A row as a document has it. -/
def recovered (l : Layout) (cells : Text → Cell) : Row := Snapshot.recoverRow (l.row cells)

/-- The rows that have a column with another text than `undefined`. -/
def shown (l : Layout) (rows : List (Text → Cell)) : List (Text → Cell) :=
  rows.filter fun cells => l.columns.any fun column => cells column != some Literal.undefined

theorem mem_recovered {e : Text × Value} : e ∈ (l.recovered cells).entries ↔
    e.1 ∈ l.columns ∧ cells e.1 ≠ some Literal.undefined ∧
      e.2 = Literal.recover (cellValue (cells e.1)) := by
  rw [recovered, Snapshot.mem_recoverRow]
  constructor
  · rintro ⟨v, hv, hrecover, hne⟩
    obtain ⟨column, hcolumn, he⟩ := List.mem_map.mp hv
    obtain ⟨rfl, rfl⟩ := Prod.mk.inj he
    refine ⟨hcolumn, fun h => hne ?_, hrecover.symm⟩
    rw [← hrecover, Literal.recover_cellValue_eq_absent_iff, h]
  · rintro ⟨hcolumn, hne, hvalue⟩
    refine ⟨cellValue (cells e.1), List.mem_map_of_mem hcolumn, hvalue.symm, fun h => hne ?_⟩
    exact (Literal.recover_cellValue_eq_absent_iff _).mp (hvalue ▸ h)

theorem get?_recovered_of_undefined (h : cells column = some Literal.undefined) :
    (l.recovered cells).get? column = none := by
  refine OrderedMap.get?_eq_none _ fun hkey => ?_
  obtain ⟨e, he, rfl⟩ := List.mem_map.mp hkey
  exact (mem_recovered.mp he).2.1 h

theorem get?_recovered (hcolumn : column ∈ l.columns)
    (h : cells column ≠ some Literal.undefined) :
    (l.recovered cells).get? column = some (Literal.recover (cellValue (cells column))) :=
  (l.recovered cells).get?_of_mem (e := (column, _)) (mem_recovered.mpr ⟨hcolumn, h, rfl⟩)

theorem subset_keys_recovered : ∀ column ∈ (l.recovered cells).keys, column ∈ l.columns := by
  intro column hcolumn
  obtain ⟨e, he, rfl⟩ := List.mem_map.mp hcolumn
  exact (mem_recovered.mp he).1

/-- Just the rows that are shown have a value. -/
theorem recovered_isEmpty : (l.recovered cells).isEmpty =
    !l.columns.any fun column => cells column != some Literal.undefined := by
  rw [Bool.eq_iff_iff, OrderedMap.isEmpty, List.isEmpty_iff, List.eq_nil_iff_forall_not_mem,
    Bool.not_eq_true', List.any_eq_false]
  constructor
  · intro h column hcolumn hne
    exact h (column, Literal.recover (cellValue (cells column)))
      (mem_recovered.mpr ⟨hcolumn, bne_iff_ne.mp hne, rfl⟩)
  · intro h e he
    obtain ⟨hcolumn, hne, -⟩ := mem_recovered.mp he
    exact h e.1 hcolumn (bne_iff_ne.mpr hne)

/-- The rows of a table as its document has them. -/
def exported (l : Layout) (rows : List (Text → Cell)) : List Row :=
  (l.shown rows).map l.recovered

theorem documentRows_row (l : Layout) (rows : List (Text → Cell)) :
    Snapshot.documentRows (rows.map l.row) = l.exported rows := by
  rw [Snapshot.documentRows, List.map_map, List.filter_map, exported, shown]
  refine congrArg (List.map _) (List.filter_congr fun cells _ => ?_)
  show (!(l.recovered cells).isEmpty) = _
  rw [recovered_isEmpty, Bool.not_not]

/-! ## Rows that are inserted again -/

/-- What a row that was inserted again stands for in a column. -/
theorem recover_stored_recovered (hcolumn : column ∈ l.columns) :
    Literal.recover (cellValue (stored (l.recovered cells) column)) =
      cell (l.recovered cells) column := by
  by_cases h : cells column = some Literal.undefined
  · rw [stored, cell, get?_recovered_of_undefined h]
    rfl
  · rw [stored, cell, get?_recovered hcolumn h]
    exact Literal.recover_cellValue_content? h

theorem cell_recovered_ne_absent (hcolumn : column ∈ l.columns) :
    cell (l.recovered cells) column ≠ .absent := by
  by_cases h : cells column = some Literal.undefined
  · rw [cell, get?_recovered_of_undefined h]
    exact Value.noConfusion
  · rw [cell, get?_recovered hcolumn h]
    exact fun habsent => h ((Literal.recover_cellValue_eq_absent_iff _).mp habsent)

theorem recoverRow_rowOf (h : ∀ column ∈ l.columns, Literal.recover (f column) ≠ .absent) :
    Snapshot.recoverRow (l.rowOf f) = l.rowOf fun column => Literal.recover (f column) := by
  refine OrderedMap.ext ?_
  simp only [Snapshot.recoverRow, OrderedMap.filterMap, rowOf, List.filterMap_map]
  rw [← List.filterMap_eq_map']
  refine List.filterMap_congr fun column hcolumn => ?_
  have hne := h column hcolumn
  simp only [Function.comp_apply, Option.map_some]

/-- No column of a row that was inserted again is left out. -/
theorem recovered_stored_recovered (l : Layout) (cells : Text → Cell) :
    l.recovered (stored (l.recovered cells)) = l.complete (l.recovered cells) := by
  rw [recovered, row, recoverRow_rowOf, complete]
  · exact rowOf_congr fun column hcolumn => recover_stored_recovered hcolumn
  · intro column hcolumn
    rw [recover_stored_recovered hcolumn]
    exact cell_recovered_ne_absent hcolumn

theorem row_stored_complete (l : Layout) (row : Row) :
    l.row (stored (l.complete row)) = l.row (stored row) := by
  refine rowOf_congr fun column hcolumn => congrArg cellValue ?_
  rw [stored, complete, get?_rowOf hcolumn, Option.bind_some, content?_cell]

/-! ## The rows of a table, exported and inserted -/

/-- A row that was inserted again is shown if it was. -/
theorem shown_stored_exported (l : Layout) (rows : List (Text → Cell)) :
    l.shown ((l.exported rows).map stored) = (l.exported rows).map stored := by
  refine List.filter_eq_self.mpr fun again hagain => ?_
  obtain ⟨row, hrow, rfl⟩ := List.mem_map.mp hagain
  obtain ⟨cells, hcells, rfl⟩ := List.mem_map.mp hrow
  obtain ⟨-, hany⟩ := List.mem_filter.mp hcells
  obtain ⟨column, hcolumn, -⟩ := List.any_eq_true.mp hany
  refine List.any_eq_true.mpr ⟨column, hcolumn, bne_iff_ne.mpr fun hundefined => ?_⟩
  have hpresent : cell (l.recovered cells) column ≠ .absent := cell_recovered_ne_absent hcolumn
  refine hpresent ?_
  rw [← recover_stored_recovered hcolumn, Literal.recover_cellValue_eq_absent_iff, hundefined]

/-- **Inserted again, the rows of a document are exported with all columns.** -/
theorem exported_stored_exported (l : Layout) (rows : List (Text → Cell)) :
    l.exported ((l.exported rows).map stored) = (l.exported rows).map l.complete := by
  rw [exported, shown_stored_exported, exported, List.map_map, List.map_map, List.map_map]
  exact List.map_congr_left fun cells _ => l.recovered_stored_recovered cells

/-- Rows with all columns are selected as the rows that they were made of. -/
theorem map_row_stored_complete (l : Layout) (rows : List Row) :
    ((rows.map l.complete).map stored).map l.row = (rows.map stored).map l.row := by
  rw [List.map_map, List.map_map, List.map_map]
  exact List.map_congr_left fun row _ => l.row_stored_complete row

/-! ## Rows that can be inserted -/

/-- Whether a row names columns, and columns of the table only. -/
def Fits (l : Layout) (row : Row) : Prop :=
  row.entries ≠ [] ∧ ∀ column ∈ row.keys, column ∈ l.columns

theorem fits_of_mem_exported {rows : List (Text → Cell)} {row : Row} (h : row ∈ l.exported rows) :
    l.Fits row := by
  obtain ⟨cells, hcells, rfl⟩ := List.mem_map.mp h
  obtain ⟨-, hany⟩ := List.mem_filter.mp hcells
  refine ⟨fun hempty => ?_, subset_keys_recovered⟩
  have hnone : (l.recovered cells).isEmpty = true := List.isEmpty_iff.mpr hempty
  rw [recovered_isEmpty, hany] at hnone
  cases hnone

theorem Fits.complete {row : Row} (h : l.Fits row) : l.Fits (l.complete row) := by
  refine ⟨fun hempty => h.1 ?_, fun column hcolumn => ?_⟩
  · have hcolumns : l.columns = [] := List.map_eq_nil_iff.mp hempty
    refine List.eq_nil_iff_forall_not_mem.mpr fun e he => ?_
    have hcolumn := h.2 e.1 (List.mem_map_of_mem he)
    rw [hcolumns] at hcolumn
    cases hcolumn
  · rwa [Layout.complete, keys_rowOf] at hcolumn

end Layout
end SqlInterchange
