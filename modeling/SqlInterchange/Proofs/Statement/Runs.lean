import Mathlib.Data.List.SplitBy
import SqlInterchange.Proofs.Statement.Partition

/-! # Batches by runs

Where the columns of the rows change a batch ends whatever the limit.  So the batches of rows are
those of the runs in which the columns are the same, run after run (`MaximalRuns.batches_eq`), and
of each run there are as many as its length asks for (`MaximalRuns.length_batches`).
-/
namespace SqlInterchange.RowStatement

/-- Whether rows are cut into the longest groups whose rows all have the same columns. -/
structure MaximalRuns (rows : List Row) (runs : List (List Row)) : Prop where
  /-- The runs hold the rows in their order, each once. -/
  flatten : runs.flatten = rows
  /-- No run is empty. -/
  ne_nil : ∀ run ∈ runs, run ≠ []
  /-- All rows of a run have the same columns. -/
  columns : ∀ run ∈ runs, ∀ row ∈ run, ∀ other ∈ run, SameColumns row other
  /-- The next run has other columns. -/
  maximal : runs.IsChain fun run next => ∀ row ∈ run, ∀ other ∈ next, ¬SameColumns other row

/-- The runs of rows with the same columns. -/
def columnRuns (rows : List Row) : List (List Row) := rows.splitBy fun row next => next.sameKeys row

variable {limit : Int} {rows : List Row}

theorem SameColumns.refl (row : Row) : SameColumns row row := fun _ => Iff.rfl

instance : Std.Symm SameColumns := ⟨fun _ _ => SameColumns.symm⟩

instance : IsTrans Row SameColumns := ⟨fun _ _ _ => SameColumns.trans⟩

/-- Where neighbours have the same columns all rows have. -/
theorem sameColumns_of_isChain {run : List Row}
    (h : run.IsChain fun row next => next.sameKeys row) :
    ∀ row ∈ run, ∀ other ∈ run, SameColumns row other := by
  have hchain : run.IsChain SameColumns := h.imp fun row next hsame =>
    ((sameKeys_iff next row).mp hsame).symm
  exact List.Pairwise.forall_of_forall (fun row _ => .refl row) hchain.pairwise

/-- **The runs of rows are maximal.** -/
theorem maximalRuns_columnRuns (rows : List Row) : MaximalRuns rows (columnRuns rows) := by
  have hcolumns : ∀ run ∈ columnRuns rows, ∀ row ∈ run, ∀ other ∈ run, SameColumns row other :=
    fun run hrun => sameColumns_of_isChain (List.isChain_of_mem_splitBy hrun)
  refine ⟨List.flatten_splitBy _ rows, fun _ => List.ne_nil_of_mem_splitBy, hcolumns, ?_⟩
  refine (List.isChain_getLast_head_splitBy _ rows).imp_of_mem_imp ?_
  rintro run next hrun hnext ⟨hne, hne', hother⟩ row hrow other hother' hsame
  -- the neighbours at the border would have the same columns
  have hlast := hcolumns run hrun row hrow _ (List.getLast_mem hne)
  have hhead := hcolumns next hnext _ (List.head_mem hne') other hother'
  have hborder := (sameKeys_iff _ _).mpr (hhead.trans (hsame.trans hlast))
  exact Bool.false_ne_true (hother.symm.trans hborder)

/-! ## Batches and runs -/

/-- A row with other columns than all before it begins a batch of its own. -/
theorem batchesFrom_append (begun : Batch) (next : Row) (behind : List Row)
    (hbegun : ¬SameColumns next begun.first) (h : ∀ row ∈ rows, ¬SameColumns next row) :
    batchesFrom limit begun (rows ++ next :: behind) =
      batchesFrom limit begun rows ++ batchesFrom limit ⟨next, []⟩ behind := by
  induction rows generalizing begun with
  | nil =>
    have hclosed : begun.isClosedTo limit next := (isClosedTo_iff begun next).mpr (.inr hbegun)
    exact if_pos hclosed
  | cons row rows ih =>
    obtain ⟨hrow, hrows⟩ := List.forall_mem_cons.mp h
    rw [List.cons_append, batchesFrom, batchesFrom]
    split
    · rw [ih ⟨row, []⟩ hrow hrows, List.cons_append]
    · exact ih ⟨begun.first, begun.others ++ [row]⟩ hbegun hrows

theorem batches_append {run : List Row} (next : Row) (behind : List Row)
    (h : ∀ row ∈ run, ¬SameColumns next row) :
    batches limit (run ++ next :: behind) =
      batches limit run ++ batches limit (next :: behind) := by
  cases run with
  | nil => rfl
  | cons row run =>
    obtain ⟨hrow, hrun⟩ := List.forall_mem_cons.mp h
    exact batchesFrom_append ⟨row, []⟩ next behind hrow hrun

namespace MaximalRuns

variable {runs : List (List Row)}

/-- **The batches of rows are those of the runs.** -/
theorem batches_eq (h : MaximalRuns rows runs) :
    batches limit rows = runs.flatMap (batches limit) := by
  obtain ⟨rfl, hne, -, hmaximal⟩ := h
  induction runs with
  | nil => rfl
  | cons run runs ih =>
    obtain ⟨-, hnes⟩ := List.forall_mem_cons.mp hne
    obtain ⟨hnext, hmaximal⟩ := List.isChain_cons.mp hmaximal
    rw [List.flatten_cons, List.flatMap_cons, ← ih hnes hmaximal]
    cases runs with
    | nil => simp [batches]
    | cons next runs =>
      obtain ⟨row, next, rfl⟩ := List.exists_cons_of_ne_nil (hnes next (List.mem_cons_self ..))
      have hother : ∀ other ∈ run, ¬SameColumns row other := fun other hother =>
        hnext _ rfl other hother row (List.mem_cons_self ..)
      exact batches_append row (next ++ runs.flatten) hother

/-- **Rows are in as many batches as the lengths of their runs ask for.** -/
theorem length_batches (h : MaximalRuns rows runs) (hlimit : 1 ≤ limit) :
    (batches limit rows).length = (runs.map fun run => ⌈(run.length : ℚ) / limit⌉₊).sum := by
  rw [h.batches_eq, List.length_flatMap]
  refine congrArg List.sum (List.map_congr_left fun run hrun => ?_)
  have hceil := (greedy_batches limit run).length_eq_ceil hlimit (h.columns run hrun)
  have hpos : (0 : ℚ) ≤ (run.length : ℚ) / limit := by positivity
  rw [← Int.natCast_ceil_eq_ceil hpos] at hceil
  exact_mod_cast hceil

end MaximalRuns
end SqlInterchange.RowStatement
