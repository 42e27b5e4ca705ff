import Mathlib.Data.List.Chain
import Mathlib.Data.Rat.Floor
import SqlInterchange.Proofs.Statement.Batches

/-! # Batches as a partition

The batches of rows hold all rows in their order, and a batch ends only where it has to: it has as
many rows as it may have, or the next row has other columns (`greedy_batches`).  No other way of
cutting the rows needs fewer statements (`Greedy.length_le`), and rows that all have the same
columns need as many as their number asks for (`Greedy.length_eq_ceil`).

The reason that greed is best here: whatever may share a statement still may when rows are left
out of it.  So if a group of another cut held a whole batch and the row after it, then these could
have shared a statement, and the batch would not have ended.  Hence of as many groups as there are
batches, none is left that ends further on.
-/
namespace SqlInterchange.RowStatement

/-- Whether two rows have the same columns, in whatever order. -/
def SameColumns (row other : Row) : Prop := ∀ column, column ∈ row.keys ↔ column ∈ other.keys

theorem SameColumns.symm {row other : Row} (h : SameColumns row other) : SameColumns other row :=
  fun column => (h column).symm

theorem SameColumns.trans {row other third : Row} (h : SameColumns row other)
    (h' : SameColumns other third) : SameColumns row third :=
  fun column => (h column).trans (h' column)

theorem sameKeys_iff (row other : Row) : row.sameKeys other ↔ SameColumns row other := by
  refine ⟨fun h => OrderedMap.mem_keys_of_sameKeys h, fun h => ?_⟩
  refine Bool.and_eq_true_iff.mpr ⟨List.all_eq_true.mpr ?_, List.all_eq_true.mpr ?_⟩
  · exact fun column hcolumn => List.contains_iff_mem.mpr ((h column).mp hcolumn)
  · exact fun column hcolumn => List.contains_iff_mem.mpr ((h column).mpr hcolumn)

/-- Whether rows may share a statement: they have the same columns, and are not more than the
limit.  A limit below one limits nothing. -/
structure MayShare (limit : Int) (group : List Row) : Prop where
  /-- All rows have the same columns. -/
  columns : ∀ row ∈ group, ∀ other ∈ group, SameColumns row other
  /-- There are not too many of them. -/
  size : 1 ≤ limit → (group.length : Int) ≤ limit

/-- Whether rows are cut into consecutive groups that may each share a statement. -/
structure IsCut (limit : Int) (rows : List Row) (groups : List (List Row)) : Prop where
  /-- The groups hold the rows in their order, each once. -/
  flatten : groups.flatten = rows
  /-- Each group may share a statement. -/
  share : ∀ group ∈ groups, MayShare limit group

/-- Whether rows are cut into batches, none of which ends before it has to. -/
structure Greedy (limit : Int) (rows : List Row) (bs : List Batch) : Prop where
  /-- The rows are cut. -/
  cut : IsCut limit rows (bs.map Batch.rows)
  /-- A batch with another one after it is full, or the next row has other columns. -/
  closes : bs.IsChain fun b next =>
    (b.rows.length : Int) = limit ∨ ¬SameColumns next.first b.first

variable {limit : Int} {rows : List Row} {bs : List Batch}

/-! ## The batches are greedy -/

theorem isClosedTo_iff (b : Batch) (row : Row) :
    b.isClosedTo limit row = true ↔
      (b.rows.length : Int) = limit ∨ ¬SameColumns row b.first := by
  rw [Batch.isClosedTo, Bool.or_eq_true, beq_iff_eq, ← sameKeys_iff, Bool.not_eq_true']
  exact or_congr_right (Bool.not_eq_true _).symm.to_iff

/-- The batch that is begun is the first one, with what is added to it. -/
theorem head_batchesFrom (limit : Int) (begun : Batch) (rows : List Row) :
    ∃ others rest, batchesFrom limit begun rows = ⟨begun.first, others⟩ :: rest := by
  induction rows generalizing begun with
  | nil => exact ⟨begun.others, [], rfl⟩
  | cons row rows ih =>
    rw [batchesFrom]
    split
    · exact ⟨begun.others, _, rfl⟩
    · exact ih ⟨begun.first, begun.others ++ [row]⟩

theorem closes_batchesFrom (begun : Batch) (rows : List Row) :
    (batchesFrom limit begun rows).IsChain fun b next =>
      (b.rows.length : Int) = limit ∨ ¬SameColumns next.first b.first := by
  induction rows generalizing begun with
  | nil => exact .singleton begun
  | cons row rows ih =>
    rw [batchesFrom]
    split
    · next hclosed =>
      -- the next batch begins with the row that this one is closed to
      obtain ⟨others, rest, hnext⟩ := head_batchesFrom limit ⟨row, []⟩ rows
      have hrest := ih ⟨row, []⟩
      rw [hnext] at hrest ⊢
      exact .cons_cons ((isClosedTo_iff begun row).mp hclosed) hrest
    · exact ih ⟨begun.first, begun.others ++ [row]⟩

theorem length_rows_le (hlimit : 1 ≤ limit) :
    ∀ b ∈ batches limit rows, (b.rows.length : Int) ≤ limit := by
  refine forall_mem_batches (fun row => hlimit) (fun b row hle hopen => ?_) rows
  have hne : (b.rows.length : Int) ≠ limit := fun heq =>
    Bool.eq_false_iff.mp hopen ((isClosedTo_iff b row).mpr (.inl heq))
  have hlength : (Batch.rows ⟨b.first, b.others ++ [row]⟩).length = b.rows.length + 1 := by
    simp [Batch.rows]
  omega

/-- **Main.** The batches of rows are cut greedily. -/
theorem greedy_batches (limit : Int) (rows : List Row) :
    Greedy limit rows (batches limit rows) := by
  constructor
  case cut =>
    refine ⟨rows_batches limit rows, fun group hgroup => ?_⟩
    obtain ⟨b, hb, rfl⟩ := List.mem_map.mp hgroup
    refine ⟨fun row hrow other hother => ?_, fun hlimit => length_rows_le hlimit b hb⟩
    have hfirst {row : Row} (hrow : row ∈ b.rows) : SameColumns row b.first :=
      (sameKeys_iff row b.first).mp (sameKeys_of_mem_batches hb hrow)
    exact (hfirst hrow).trans (hfirst hother).symm
  case closes =>
    cases rows with
    | nil => exact .nil
    | cons row rows => exact closes_batchesFrom ⟨row, []⟩ rows

/-! ## No cut has fewer groups -/

namespace Greedy

/-- A batch and the row after it may not share a statement. -/
theorem not_mayShare {b next : Batch} {group : List Row}
    (hcloses : (b.rows.length : Int) = limit ∨ ¬SameColumns next.first b.first)
    (hgroup : b.rows ++ [next.first] <:+: group) : ¬MayShare limit group := by
  intro ⟨hcolumns, hsize⟩
  have hmem {row : Row} (hrow : row ∈ b.rows ++ [next.first]) : row ∈ group := hgroup.subset hrow
  rcases hcloses with hfull | hother
  · have hlength := hgroup.length_le
    have hpos : 0 < b.rows.length := Nat.succ_pos _
    rw [List.length_append, List.length_singleton] at hlength
    have := hsize (by omega)
    omega
  · exact hother (hcolumns _ (hmem (by simp)) _ (hmem (by simp [Batch.rows])))

/-- Greedy batches of the last rows of a cut are not more than its groups. -/
theorem length_le_of_suffix {groups : List (List Row)}
    (hcloses : bs.IsChain fun b next =>
      (b.rows.length : Int) = limit ∨ ¬SameColumns next.first b.first)
    (hshare : ∀ group ∈ groups, MayShare limit group)
    (hsuffix : bs.flatMap Batch.rows <:+ groups.flatten) : bs.length ≤ groups.length := by
  induction groups generalizing bs with
  | nil =>
    cases bs with
    | nil => exact Nat.le_refl _
    | cons b bs => exact absurd (List.suffix_nil.mp hsuffix) (List.cons_ne_nil _ _)
  | cons group groups ih =>
    obtain ⟨hgroup, hgroups⟩ := List.forall_mem_cons.mp hshare
    cases bs with
    | nil => exact Nat.zero_le _
    | cons b bs =>
      refine Nat.succ_le_succ (ih (List.isChain_cons.mp hcloses).2 hgroups ?_)
      rw [List.flatMap_cons, List.flatten_cons] at hsuffix
      -- the other batches are of the rows after the group, or one of them begins in the group
      have hrest : bs.flatMap Batch.rows <:+ group ++ groups.flatten :=
        (List.suffix_append ..).trans hsuffix
      rcases List.suffix_or_suffix_of_suffix hrest (List.suffix_append group _) with h | h
      · exact h
      · cases bs with
        | nil => exact List.nil_suffix
        | cons next bs =>
          obtain ⟨inGroup, hinGroup⟩ := h
          cases inGroup with
          | nil => exact hinGroup ▸ List.suffix_refl _
          | cons row inGroup =>
            have hrow : row = next.first := (List.cons_eq_cons.mp hinGroup).1
            rw [← hinGroup, ← List.append_assoc] at hsuffix
            have hwithin : b.rows ++ row :: inGroup <:+ group :=
              ((List.suffix_append_inj_of_length_eq rfl).mp hsuffix).1
            refine absurd hgroup (not_mayShare (List.isChain_cons_cons.mp hcloses).1 ?_)
            rw [← hrow]
            refine List.IsInfix.trans (List.IsPrefix.isInfix ⟨inGroup, ?_⟩) hwithin.isInfix
            rw [List.append_assoc, List.singleton_append]

/-- **Main.** No cut of the rows has fewer groups than there are greedy batches. -/
theorem length_le (h : Greedy limit rows bs) {groups : List (List Row)}
    (hcut : IsCut limit rows groups) : bs.length ≤ groups.length := by
  have hrows : bs.flatMap Batch.rows = groups.flatten := by
    rw [List.flatMap_def, h.cut.flatten, hcut.flatten]
  exact length_le_of_suffix h.closes hcut.share (hrows ▸ List.suffix_refl _)

/-! ## How many batches there are -/

/-- Batches that are full, but for the last one, are as many as their rows ask for. -/
theorem length_bounds (hsize : ∀ b ∈ bs, (b.rows.length : Int) ≤ limit)
    (hfull : bs.IsChain fun b _ => (b.rows.length : Int) = limit) :
    ((bs.flatMap Batch.rows).length : Int) ≤ bs.length * limit ∧
      (bs ≠ [] → (bs.length - 1) * limit < ((bs.flatMap Batch.rows).length : Int)) := by
  induction bs with
  | nil => simp
  | cons b bs ih =>
    obtain ⟨hb, hbs⟩ := List.forall_mem_cons.mp hsize
    obtain ⟨hfirst, hrest⟩ := List.isChain_cons.mp hfull
    obtain ⟨hle, hlt⟩ := ih hbs hrest
    rw [List.flatMap_cons, List.length_append, List.length_cons]
    push_cast
    refine ⟨by linarith, fun _ => ?_⟩
    cases bs with
    | nil =>
      have hpos : 0 < b.rows.length := Nat.succ_pos _
      simpa using hpos
    | cons next bs =>
      -- a batch with another one after it is full
      have hb : (b.rows.length : Int) = limit := hfirst next rfl
      have := hlt (List.cons_ne_nil _ _)
      linarith

/-- **Main.** Rows with the same columns are in as many batches as their number asks for. -/
theorem length_eq_ceil (h : Greedy limit rows bs) (hlimit : 1 ≤ limit)
    (hrows : ∀ row ∈ rows, ∀ other ∈ rows, SameColumns row other) :
    (bs.length : Int) = ⌈(rows.length : ℚ) / limit⌉ := by
  have hflat : bs.flatMap Batch.rows = rows := by rw [List.flatMap_def, h.cut.flatten]
  have hsize : ∀ b ∈ bs, (b.rows.length : Int) ≤ limit := fun b hb =>
    (h.cut.share _ (List.mem_map_of_mem hb)).size hlimit
  have hmem : ∀ b ∈ bs, b.first ∈ rows := fun b hb => by
    rw [← hflat]
    exact List.mem_flatMap.mpr ⟨b, hb, List.mem_cons_self⟩
  have hfull : bs.IsChain fun b _ => (b.rows.length : Int) = limit :=
    h.closes.imp_of_mem_imp fun b next hb hnext hcloses =>
      hcloses.resolve_right fun hother => hother (hrows _ (hmem next hnext) _ (hmem b hb))
  obtain ⟨hle, hlt⟩ := length_bounds hsize hfull
  rw [hflat] at hle hlt
  have hpos : (0 : ℚ) < limit := by exact_mod_cast hlimit
  refine (Int.ceil_eq_iff.mpr ⟨?_, ?_⟩).symm
  · cases bs with
    | nil =>
      obtain rfl : rows = [] := hflat.symm
      simp
    | cons b bs =>
      rw [lt_div_iff₀ hpos]
      exact_mod_cast hlt (List.cons_ne_nil _ _)
  · rw [div_le_iff₀ hpos]
    exact_mod_cast hle

end Greedy

/-! ## The statements -/

/-- Five rows without fields, two to a statement, take three statements. -/
example : (inserts 2 "t".toList (List.replicate 5 (.ofList []))).length = 3 := by decide

end SqlInterchange.RowStatement
