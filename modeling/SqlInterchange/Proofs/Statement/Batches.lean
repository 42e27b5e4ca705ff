import Mathlib.Algebra.Order.BigOperators.Group.List
import Mathlib.Algebra.Order.Group.Multiset
import SqlInterchange.Proofs.Statement.Insertion

/-! # Rows in batches

Batches hold the rows in their order, every row once, and all rows of a batch have the columns of
its first one.  Compiled one by one, the rows are inserted as they are.  Compiled in batches they
are not: the insert of a batch unites its rows, and of rows with the same texts in the same columns
one is left.  What is inserted is, for each batch, the distinct rows among those that it stores
(`inserted?_inserts`), so that nothing is lost if and only if no batch stores a row twice
(`batches_keep_rows_iff`).
-/
namespace SqlInterchange.RowStatement

open Token

/-! ## The rows of batches -/

/-- Batches hold the rows in their order. -/
theorem rows_batchesFrom (limit : Int) (begun : Batch) (rows : List Row) :
    (batchesFrom limit begun rows).flatMap Batch.rows = begun.rows ++ rows := by
  induction rows generalizing begun with
  | nil => simp [batchesFrom]
  | cons row rows ih =>
    rw [batchesFrom]
    split
    · rw [List.flatMap_cons, ih]
      rfl
    · rw [ih]
      simp [Batch.rows]

theorem rows_batches (limit : Int) (rows : List Row) :
    (batches limit rows).flatMap Batch.rows = rows := by
  cases rows with
  | nil => rfl
  | cons row rows => exact rows_batchesFrom limit ⟨row, []⟩ rows

/-- What holds of batches of one row, and stays when a row is added that they are not closed to,
holds of all batches. -/
theorem forall_mem_batches {p : Batch → Prop} {limit : Int} (hfirst : ∀ row, p ⟨row, []⟩)
    (hnext : ∀ b row, p b → b.isClosedTo limit row = false → p ⟨b.first, b.others ++ [row]⟩)
    (rows : List Row) : ∀ b ∈ batches limit rows, p b := by
  have hfrom : ∀ (begun : Batch) (rows : List Row), p begun →
      ∀ b ∈ batchesFrom limit begun rows, p b := by
    intro begun rows
    induction rows generalizing begun with
    | nil =>
      intro hbegun
      exact List.forall_mem_singleton.mpr hbegun
    | cons row rows ih =>
      intro hbegun
      rw [batchesFrom]
      split
      · exact List.forall_mem_cons.mpr ⟨hbegun, ih _ (hfirst row)⟩
      · next hopen => exact ih _ (hnext begun row hbegun (by simpa using hopen))
  cases rows with
  | nil => exact fun b hb => absurd hb List.not_mem_nil
  | cons row rows => exact hfrom _ rows (hfirst row)

/-- All rows of a batch have the columns of its first row. -/
theorem sameKeys_of_mem_batches {limit : Int} {rows : List Row} {b : Batch}
    (hb : b ∈ batches limit rows) {row : Row} (hrow : row ∈ b.rows) : row.sameKeys b.first := by
  refine forall_mem_batches (p := fun b => ∀ row ∈ b.rows, row.sameKeys b.first) ?_ ?_ rows b hb
    row hrow
  · intro row
    exact List.forall_mem_singleton.mpr row.sameKeys_self
  · intro b next hsame hopen row hrow
    have hnext : next.sameKeys b.first := by
      simp only [Batch.isClosedTo, Bool.or_eq_false_iff, Bool.not_eq_false'] at hopen
      exact hopen.2
    rcases List.mem_append.mp (show row ∈ b.rows ++ [next] from hrow) with hrow | hrow
    · exact hsame row hrow
    · rw [List.mem_singleton.mp hrow]
      exact hnext

/-- A limit of one leaves every row alone. -/
theorem batches_one (rows : List Row) : batches 1 rows = rows.map (⟨·, []⟩) := by
  have hfrom : ∀ (row : Row) (rows : List Row),
      batchesFrom 1 ⟨row, []⟩ rows = ⟨row, []⟩ :: rows.map (⟨·, []⟩) := by
    intro row rows
    induction rows generalizing row with
    | nil => rfl
    | cons next rows ih =>
      have hclosed : Batch.isClosedTo 1 ⟨row, []⟩ next = true := rfl
      rw [batchesFrom, if_pos hclosed, ih, List.map_cons]
  cases rows with
  | nil => rfl
  | cons row rows => exact hfrom row rows

theorem others_of_mem_batches_one {rows : List Row} {b : Batch} (hb : b ∈ batches 1 rows) :
    b.others = [] := by
  rw [batches_one] at hb
  obtain ⟨row, -, rfl⟩ := List.mem_map.mp hb
  rfl

/-! ## What an insert inserts -/

/-- A row as it is stored: the texts that its values are written as. -/
def stored (row : Row) (column : Text) : Cell := (row.get? column).bind Literal.content?

theorem content?_cell (row : Row) (column : Text) :
    Literal.content? (cell row column) = stored row column := by
  rw [cell, stored]
  cases row.get? column <;> rfl

theorem lookup_zip_map {α : Type} (f : Text → α) (columns : List Text) (column : Text) :
    (columns.zip (columns.map f)).lookup column =
      if column ∈ columns then some (f column) else none := by
  induction columns with
  | nil => rfl
  | cons c columns ih =>
    rw [List.map_cons, List.zip_cons_cons, List.lookup_cons, ih]
    by_cases hc : column = c
    · simp [hc]
    · rw [beq_false_of_ne hc]
      simp [hc]

/-- The texts of a row by column: null has none, and a column that the row lacks has no cell. -/
def texts (row : Row) (column : Text) : Option Cell := (row.get? column).map Literal.content?

theorem join_texts (row : Row) (column : Text) : (texts row column).join = stored row column := by
  rw [texts, stored]
  cases row.get? column <;> rfl

/-- A part of an insert has the texts of its row in its columns. -/
theorem lookup_cells {first row : Row} (h : row.sameKeys first) (column : Text) :
    (first.keys.zip (cells first.keys row)).lookup column = texts row column := by
  rw [cells, lookup_zip_map, texts]
  by_cases hcolumn : column ∈ first.keys
  · have hrow : column ∈ row.keys := (OrderedMap.mem_keys_of_sameKeys h column).mpr hcolumn
    obtain ⟨field, hfield, rfl⟩ := List.mem_map.mp hrow
    rw [if_pos hcolumn, cell, row.get?_of_mem hfield]
    rfl
  · have hnone : column ∉ row.keys := fun hrow =>
      hcolumn ((OrderedMap.mem_keys_of_sameKeys h column).mp hrow)
    rw [if_neg hcolumn, row.get?_eq_none hnone]
    rfl

/-- A part of an insert makes the row whose values it has. -/
theorem row_cells {first row : Row} (h : row.sameKeys first) :
    Insertion.row first.keys (cells first.keys row) = stored row := by
  funext column
  rw [Insertion.row, lookup_cells h, join_texts]

/-- The values of a part are those of its row. -/
theorem map_row (columns : List Text) (hnodup : columns.Nodup) {part : List Cell}
    (hlength : part.length = columns.length) : columns.map (Insertion.row columns part) = part := by
  induction columns generalizing part with
  | nil => exact (List.eq_nil_of_length_eq_zero hlength).symm
  | cons column columns ih =>
    cases part with
    | nil => cases hlength
    | cons value part =>
      obtain ⟨hcolumn, hnodup⟩ := List.nodup_cons.mp hnodup
      have hfirst : Insertion.row (column :: columns) (value :: part) column = value := by
        simp [Insertion.row]
      have hrest : columns.map (Insertion.row (column :: columns) (value :: part)) =
          columns.map (Insertion.row columns part) := by
        refine List.map_congr_left fun c hc => ?_
        have hne : c ≠ column := fun heq => hcolumn (heq ▸ hc)
        rw [Insertion.row, List.zip_cons_cons, List.lookup_cons, beq_false_of_ne hne]
        rfl
      rw [List.map_cons, hfirst, hrest, ih hnodup (Nat.succ.inj hlength)]

open scoped Classical in
/-- **An insert inserts the distinct rows of its batch.** -/
theorem rows_insertion {b : Batch} (h : ∀ row ∈ b.rows, row.sameKeys b.first) (table : Text) :
    ((⟨table, b.first.keys, b.rows.map (cells b.first.keys)⟩ : Insertion).rows :
      Multiset (Text → Cell)) = (b.rows.map stored : Multiset (Text → Cell)).dedup := by
  let parts := b.rows.map (cells b.first.keys)
  have hlength : ∀ part ∈ parts.dedup, part.length = b.first.keys.length := by
    intro part hpart
    obtain ⟨row, -, rfl⟩ := List.mem_map.mp (List.mem_dedup.mp hpart)
    simp [cells]
  -- different parts make different rows
  have hinj : ∀ p ∈ parts.dedup, ∀ q ∈ parts.dedup,
      Insertion.row b.first.keys p = Insertion.row b.first.keys q → p = q := by
    intro p hp q hq he
    have hp := map_row b.first.keys b.first.nodup (hlength p hp)
    have hq := map_row b.first.keys b.first.nodup (hlength q hq)
    rw [← hp, he, hq]
  have hnodup : (parts.dedup.map (Insertion.row b.first.keys) : Multiset (Text → Cell)).Nodup :=
    Multiset.coe_nodup.mpr ((List.nodup_dedup _).map_on hinj)
  have hrows : parts.map (Insertion.row b.first.keys) = b.rows.map stored := by
    rw [List.map_map]
    exact List.map_congr_left fun row hrow => row_cells (h row hrow)
  calc (parts.dedup.map (Insertion.row b.first.keys) : Multiset (Text → Cell))
      = (parts.dedup.map (Insertion.row b.first.keys) : Multiset (Text → Cell)).dedup :=
        hnodup.dedup.symm
    _ = ((parts : Multiset (List Cell)).dedup.map (Insertion.row b.first.keys)).dedup := by
        rw [← Multiset.map_coe, ← Multiset.coe_dedup]
    _ = ((parts : Multiset (List Cell)).map (Insertion.row b.first.keys)).dedup :=
        Multiset.dedup_map_dedup_eq _ _
    _ = (b.rows.map stored : Multiset (Text → Cell)).dedup := by
        rw [Multiset.map_coe, hrows]

/-! ## What the statements insert -/

/-- The rows that statements insert into a table, if each of them inserts into it. -/
def inserted? (table : Text) (statements : List Text) : Option (Multiset (Text → Cell)) :=
  (statements.mapM fun statement => (Insertion.read? statement).bind fun i =>
    if i.table = table then some (i.rows : Multiset (Text → Cell)) else none).map List.sum

theorem mapM_map_eq_some {α β γ : Type} {f : β → Option γ} {g : α → β} {k : α → γ} {as : List α}
    (h : ∀ a ∈ as, f (g a) = some (k a)) : (as.map g).mapM f = some (as.map k) := by
  induction as with
  | nil => rfl
  | cons a as ih =>
    obtain ⟨ha, has⟩ := List.forall_mem_cons.mp h
    rw [List.map_cons, List.mapM_cons, ha, ih has]
    rfl

variable {rows : List Row}

open scoped Classical in
/-- **Batches insert the distinct rows that each of them stores.** -/
theorem inserted?_inserts (limit : Int) (table : Text) (h : ∀ row ∈ rows, row.entries ≠ []) :
    inserted? table (inserts limit table rows) =
      some (((batches limit rows).map fun b =>
        (b.rows.map stored : Multiset (Text → Cell)).dedup).sum) := by
  have hbatch : ∀ b ∈ batches limit rows, ((Insertion.read? (renderInsert table b)).bind fun i =>
      if i.table = table then some (i.rows : Multiset (Text → Cell)) else none) =
      some (b.rows.map stored : Multiset (Text → Cell)).dedup := by
    intro b hb
    have hsame : ∀ row ∈ b.rows, row.sameKeys b.first := fun row => sameKeys_of_mem_batches hb
    have hfirst : b.first ∈ rows := by
      rw [← rows_batches limit rows]
      exact List.mem_flatMap.mpr ⟨b, hb, List.mem_cons_self⟩
    rw [Insertion.read?_renderInsert table (h b.first hfirst), Option.bind_some, if_pos rfl,
      rows_insertion hsame]
  rw [inserted?, inserts, mapM_map_eq_some hbatch]
  rfl

/-- The rows that batches store are all rows. -/
theorem sum_stored (limit : Int) (rows : List Row) :
    ((batches limit rows).map fun b => (b.rows.map stored : Multiset (Text → Cell))).sum =
      (rows.map stored : Multiset (Text → Cell)) := by
  have hflat : (((batches limit rows).flatMap Batch.rows).map stored : Multiset (Text → Cell)) =
      ((batches limit rows).map fun b => (b.rows.map stored : Multiset (Text → Cell))).sum := by
    induction batches limit rows with
    | nil => rfl
    | cons b bs ih =>
      rw [List.flatMap_cons, List.map_append, ← Multiset.coe_add, ih, List.map_cons, List.sum_cons]
  rw [← hflat, rows_batches]

/-- Compiled one by one, the rows are inserted as they are. -/
theorem inserted?_inserts_one (table : Text) (h : ∀ row ∈ rows, row.entries ≠ []) :
    inserted? table (inserts 1 table rows) =
      some (rows.map stored : Multiset (Text → Cell)) := by
  classical
  rw [inserted?_inserts 1 table h, ← sum_stored 1 rows]
  refine congrArg (fun l => some (List.sum l)) (List.map_congr_left fun b hb => ?_)
  rw [Batch.rows, others_of_mem_batches_one hb]
  exact Multiset.dedup_singleton

/-- Nothing is lost of several lists if and only if none has anything twice. -/
theorem sum_dedup_eq_iff {α : Type} [DecidableEq α] (parts : List (Multiset α)) :
    (parts.map Multiset.dedup).sum = parts.sum ↔ ∀ part ∈ parts, part.Nodup := by
  induction parts with
  | nil => simp
  | cons part parts ih =>
    have hle : (parts.map Multiset.dedup).sum ≤ parts.sum := by
      have hall := List.sum_le_sum (l := parts) (f := Multiset.dedup) (g := id)
        fun part _ => Multiset.dedup_le part
      rwa [List.map_id] at hall
    rw [List.map_cons, List.sum_cons, List.sum_cons,
      add_eq_add_iff_eq_and_eq (Multiset.dedup_le part) hle, ih, Multiset.dedup_eq_self,
      List.forall_mem_cons]

/-- Batches insert what the rows insert one by one if and only if none stores a row twice. -/
theorem inserted?_inserts_eq_iff (limit : Int) (table : Text)
    (h : ∀ row ∈ rows, row.entries ≠ []) :
    inserted? table (inserts limit table rows) = inserted? table (inserts 1 table rows) ↔
      ∀ b ∈ batches limit rows, (b.rows.map stored).Nodup := by
  classical
  have hparts := sum_dedup_eq_iff
    ((batches limit rows).map fun b => (b.rows.map stored : Multiset (Text → Cell)))
  rw [List.map_map, sum_stored, List.forall_mem_map] at hparts
  rw [inserted?_inserts limit table h, inserted?_inserts_one table h, Option.some_inj]
  exact hparts

/-! ## Batches and rows one by one -/

open scoped Classical in
/-- **Main.** Of rows with columns, compiled one by one, every row is inserted, and compiled in
batches, of each batch the distinct rows among those that it stores.  The same rows are inserted if
and only if no batch stores a row twice, whatever the kinds of its values and the order of its
columns. -/
theorem batches_keep_rows_iff (limit : Int) (table : Text)
    (h : ∀ row ∈ rows, row.entries ≠ []) :
    inserted? table (inserts 1 table rows) = some (rows.map stored : Multiset (Text → Cell)) ∧
      inserted? table (inserts limit table rows) =
        some (((batches limit rows).map fun b =>
          (b.rows.map stored : Multiset (Text → Cell)).dedup).sum) ∧
      (inserted? table (inserts limit table rows) = inserted? table (inserts 1 table rows) ↔
        ∀ b ∈ batches limit rows, (b.rows.map stored).Nodup) :=
  ⟨inserted?_inserts_one table h, inserted?_inserts limit table h,
    inserted?_inserts_eq_iff limit table h⟩

/-- Three rows: the second has its columns in another order, the third has other columns. -/
def mixedRows : List Row :=
  [.ofList [("a".toList, .bool true), ("b".toList, .text "x".toList)],
    .ofList [("b".toList, .text "x".toList), ("a".toList, .bool false)],
    .ofList [("b".toList, .null)]]

/-- In batches of two these rows are inserted as they are one by one. -/
theorem mixedRows_kept :
    (∀ row ∈ mixedRows, row.entries ≠ []) ∧
      inserted? "t".toList (inserts 2 "t".toList mixedRows) =
        inserted? "t".toList (inserts 1 "t".toList mixedRows) := by
  have hrows : ∀ row ∈ mixedRows, row.entries ≠ [] := by
    intro row hrow
    rcases List.mem_cons.mp hrow with rfl | hrow
    · exact List.cons_ne_nil _ _
    rcases List.mem_cons.mp hrow with rfl | hrow
    · exact List.cons_ne_nil _ _
    · rw [List.mem_singleton.mp hrow]
      exact List.cons_ne_nil _ _
  refine ⟨hrows, (batches_keep_rows_iff 2 "t".toList hrows).2.2.mpr fun b hb => ?_⟩
  rcases List.mem_cons.mp hb with rfl | hb
  · -- the two rows of this batch differ in the first column
    refine List.nodup_cons.mpr ⟨fun hmem => ?_, List.nodup_singleton _⟩
    have hsame := congrFun (List.mem_singleton.mp hmem) "a".toList
    exact absurd hsame (by decide)
  · rw [List.mem_singleton.mp hb]
    exact List.nodup_singleton _

/-- The same row twice. -/
def repeatedRow : List Row :=
  [.ofList [("a".toList, .int 1)], .ofList [("a".toList, .int 1)]]

/-- In a batch of two this row is inserted once. -/
theorem repeatedRow_not_kept :
    (∀ row ∈ repeatedRow, row.entries ≠ []) ∧
      inserted? "t".toList (inserts 2 "t".toList repeatedRow) ≠
        inserted? "t".toList (inserts 1 "t".toList repeatedRow) := by
  have hrows : ∀ row ∈ repeatedRow, row.entries ≠ [] := by
    intro row hrow
    rcases List.mem_cons.mp hrow with rfl | hrow
    · exact List.cons_ne_nil _ _
    · rw [List.mem_singleton.mp hrow]
      exact List.cons_ne_nil _ _
  refine ⟨hrows, fun hsame => ?_⟩
  have hnodup :=
    (inserted?_inserts_eq_iff 2 "t".toList hrows).mp hsame _ (List.mem_singleton_self _)
  exact (List.nodup_cons.mp hnodup).1 (List.mem_singleton_self _)

end SqlInterchange.RowStatement
