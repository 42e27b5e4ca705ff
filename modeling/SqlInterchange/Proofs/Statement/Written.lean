import SqlInterchange.Export
import SqlInterchange.Proofs.Document.Accepted
import SqlInterchange.Proofs.Statement.Rendered
import SqlInterchange.Sql.Script.Wrapper

/-! # Written statements

Some statements of a compiled document are its author's own: the clause of a table and the further
schema statements are taken as they are.  The others are written by the library out of names and
values, and so are the statements for the stored rows of an export.  A written statement is intact
(`Written.intact`) and no transaction wrapper; what is not written in a script is the author's own
(`written_or_own_of_compile`, `written_or_own_of_toScript`).
-/
namespace SqlInterchange

/-! ## Batches of rows -/

namespace RowStatement

variable {limit : Int}

theorem first_of_mem_batchesFrom {begun b : Batch} {rows : List Row}
    (h : b ∈ batchesFrom limit begun rows) : b.first = begun.first ∨ b.first ∈ rows := by
  induction rows generalizing begun with
  | nil =>
    obtain rfl := List.mem_singleton.mp h
    exact .inl rfl
  | cons row rows ih =>
    rw [batchesFrom] at h
    split at h
    · -- the row opens the next batch
      rcases List.mem_cons.mp h with rfl | h
      · exact .inl rfl
      · rcases ih h with hb | hb
        · exact .inr (hb ▸ List.mem_cons_self ..)
        · exact .inr (List.mem_cons_of_mem _ hb)
    · exact (ih h).imp_right (List.mem_cons_of_mem _)

/-- The row that names the columns of a batch is one of the rows. -/
theorem first_of_mem_batches {b : Batch} {rows : List Row} (h : b ∈ batches limit rows) :
    b.first ∈ rows := by
  cases rows with
  | nil => cases h
  | cons row rows =>
    rcases first_of_mem_batchesFrom h with hb | hb
    · exact hb ▸ List.mem_cons_self ..
    · exact List.mem_cons_of_mem _ hb

end RowStatement

/-! ## The statements of changes -/

namespace Document

variable {α : Type} {d : Document} {scope : Scope} {s : Text}

theorem mem_sectionStatements {render : Text → α → List Text} {entries : OrderedMap α} :
    s ∈ sectionStatements render entries ↔
      ∃ e ∈ entries.entries, Identifier.isReserved e.1 = false ∧ s ∈ render e.1 e.2 := by
  simp [sectionStatements, unreserved, OrderedMap.filterKeys, and_assoc]

/-- The statements that changes of rows are written as: those with something to write. -/
inductive ChangeStatement : Text → Prop
  | insert (table : Text) (b : RowStatement.Batch) (h : b.first.entries ≠ []) :
    ChangeStatement (RowStatement.renderInsert table b)
  | update (table : Text) (u : Update) (h : u.assignments.entries ≠ []) :
    ChangeStatement (RowStatement.renderUpdate table u.assignments u.conditions)
  | delete (table : Text) (matching : Row) (h : matching.entries ≠ []) :
    ChangeStatement (RowStatement.renderDelete table matching)

theorem changeStatement_of_compileChanges {size : Int} {c : Changes} (hc : c.WellFormed)
    (h : s ∈ compileChanges size c) : ChangeStatement s := by
  rcases List.mem_append.mp h with h | h
  · rcases List.mem_append.mp h with h | h
    · obtain ⟨⟨table, rows⟩, he, -, hs⟩ := mem_sectionStatements.mp h
      obtain ⟨b, hb, rfl⟩ := List.mem_map.mp hs
      have hfirst := RowStatement.first_of_mem_batches hb
      exact .insert table b (hc.inserts _ he _ hfirst).1
    · obtain ⟨⟨table, us⟩, he, -, hs⟩ := mem_sectionStatements.mp h
      obtain ⟨u, hu, rfl⟩ := List.mem_map.mp hs
      exact .update table u (hc.assignments _ he _ hu).1
  · obtain ⟨⟨table, rows⟩, he, -, hs⟩ := mem_sectionStatements.mp h
    obtain ⟨row, hrow, rfl⟩ := List.mem_map.mp hs
    exact .delete table row (hc.deletes _ he _ hrow).1

theorem ChangeStatement.intact (h : ChangeStatement s) : Script.Intact s := by
  cases h with
  | insert table b h => exact RowStatement.intact_renderInsert table h
  | update table u h => exact RowStatement.intact_renderUpdate table h u.conditions
  | delete table matching h => exact RowStatement.intact_renderDelete table h

end Document

/-! ## All written statements -/

/-- The statements that are written out of names and values: removals of tables, the changes of
rows of accepted documents in batches of whatever size, and stored rows. -/
inductive Written : Text → Prop
  | drop (table : Text) : Written (TableDefinition.renderDrop table)
  | change {d : Document} (hd : d.Accepted) {c : Changes} (hc : c ∈ d.changes?) (size : Int)
    {s : Text} (hs : s ∈ Document.compileChanges size c) : Written s
  | stored (table : Text) (row : Row) : Written (RowStatement.renderStored table row)

/-- **Main.** A written statement is intact. -/
theorem Written.intact {s : Text} (h : Written s) : Script.Intact s := by
  cases h with
  | drop table => exact TableDefinition.intact_renderDrop table
  | change hd hc size hs =>
    exact (Document.changeStatement_of_compileChanges (hd.wellFormed _ hc) hs).intact
  | stored table row => exact RowStatement.intact_renderStored table row

/-! ## Where written statements stand -/

/-- The statements of a document that are its author's own. -/
inductive Document.Own (d : Document) : Text → Prop
  | clause {schema : Schema} (hschema : schema ∈ d.schema?) {e : Text × Text}
    (he : e ∈ schema.tables.entries) : d.Own (TableDefinition.render e.1 e.2)
  | other {schema : Schema} (hschema : schema ∈ d.schema?) {s : Text}
    (hs : s ∈ SchemaStatement.cleaned schema.otherSql) : d.Own s

namespace Document

variable {d : Document} {scope : Scope} {s : Text}

/-- The statements for the shape of tables. -/
def compiledSchema (scope : Scope) (d : Document) : Compiled :=
  ((d.schemaIn scope).map compileSchema).getD ⟨[], []⟩

theorem compile_eq (scope : Scope) (d : Document) : d.compile scope =
    ⟨(d.compiledSchema scope).main ++
      ((d.changesIn scope).map (compileChanges scope.batchInsertSize)).getD [],
      (d.compiledSchema scope).deferred⟩ := rfl

theorem compiledSchema_of_no_schema (h : d.schemaIn scope = none) :
    d.compiledSchema scope = ⟨[], []⟩ := by
  rw [compiledSchema, h]
  rfl

/-- The statements of a document that tells the shape of tables: the main ones have the tables, the
further schema statements that make no index, and the changes; the others that make one. -/
theorem compile_of_schema {schema : Schema} (h : schema ∈ d.schemaIn scope) :
    d.compile scope =
      { main := tableStatements (unreserved schema.tables) ++
          (SchemaStatement.cleaned schema.otherSql).filter (!SchemaStatement.makesIndex ·) ++
          ((d.changesIn scope).map (compileChanges scope.batchInsertSize)).getD []
        deferred :=
          (SchemaStatement.cleaned schema.otherSql).filter SchemaStatement.makesIndex } := by
  rw [compile, Option.mem_def.mp h]
  rfl

theorem compile_of_no_schema (h : d.schemaIn scope = none) :
    d.compile scope =
      ⟨((d.changesIn scope).map (compileChanges scope.batchInsertSize)).getD [], []⟩ := by
  rw [compile_eq, compiledSchema_of_no_schema h, List.nil_append]

theorem mem_schema_of_mem_schemaIn {schema : Schema} (h : schema ∈ d.schemaIn scope) :
    schema ∈ d.schema? := by
  rw [schemaIn] at h
  split at h
  · exact h
  · cases h

theorem exists_changes_of_changesIn
    (h : s ∈ ((d.changesIn scope).map (compileChanges scope.batchInsertSize)).getD []) :
    ∃ c ∈ d.changes?, s ∈ compileChanges scope.batchInsertSize c := by
  rw [changesIn] at h
  split at h
  · cases hc : d.changes? with
    | none => simp [hc] at h
    | some c => exact ⟨c, rfl, by simpa [hc] using h⟩
  · simp at h

theorem mem_tableStatements {tables : OrderedMap Text} (h : s ∈ tableStatements tables) :
    ∃ e ∈ tables.entries,
      s = TableDefinition.renderDrop e.1 ∨ s = TableDefinition.render e.1 e.2 := by
  obtain ⟨e, he, hs⟩ := List.mem_flatMap.mp h
  exact ⟨e, he, by simpa using hs⟩

/-- A statement of an accepted document is written, unless it is the author's own. -/
theorem written_or_own_of_compile (hd : d.Accepted) (h : s ∈ (d.compile scope).statements) :
    Written s ∨ d.Own s := by
  have hchanges
      (hs : s ∈ ((d.changesIn scope).map (compileChanges scope.batchInsertSize)).getD []) :
      Written s ∨ d.Own s := by
    obtain ⟨c, hc, hs⟩ := exists_changes_of_changesIn hs
    exact .inl (.change hd hc scope.batchInsertSize hs)
  cases hschema : d.schemaIn scope with
  | none =>
    rw [compile_of_no_schema hschema] at h
    exact hchanges (by simpa [Compiled.statements] using h)
  | some schema =>
    have hmem := mem_schema_of_mem_schemaIn hschema
    have hother (p : Text → Bool) (hs : s ∈ (SchemaStatement.cleaned schema.otherSql).filter p) :
        Written s ∨ d.Own s :=
      .inr (.other hmem (List.mem_filter.mp hs).1)
    rw [compile_of_schema hschema] at h
    -- the main group has tables, further schema statements and changes
    rcases List.mem_append.mp h with h | h
    · rcases List.mem_append.mp h with h | h
      · rcases List.mem_append.mp h with h | h
        · obtain ⟨e, he, rfl | rfl⟩ := mem_tableStatements h
          · exact .inl (.drop e.1)
          · exact .inr (.clause hmem (List.mem_filter.mp he).1)
        · exact hother _ h
      · exact hchanges h
    · exact hother _ h

end Document

/-- A statement of an exported script is written, unless it is a definition from the catalog. -/
theorem Snapshot.written_or_own_of_toScript {s : Text} {x : Snapshot}
    (h : s ∈ x.toScript.statements) :
    Written s ∨ ∃ definition ∈ x.definitions, s = Text.squeeze definition.sql := by
  rcases List.mem_append.mp h with h | h
  · obtain ⟨definition, hd, hs⟩ := List.mem_flatMap.mp h
    rcases List.mem_append.mp hs with hs | hs
    · split at hs
      · obtain rfl := List.mem_singleton.mp hs
        exact .inl (.drop definition.name)
      · cases hs
    · exact .inr ⟨definition, hd, List.mem_singleton.mp hs⟩
  · obtain ⟨⟨table, rows⟩, -, hs⟩ := List.mem_flatMap.mp h
    obtain ⟨row, -, rfl⟩ := List.mem_map.mp hs
    exact .inl (.stored table row)

/-! ## Changes are no wrappers -/

namespace Script

variable {s : Text}

theorem stripWord?_eq_none {letter c : Char} (word : Text) (h : c ∈ s.head?)
    (hc : Text.foldsTo letter c = false) : Text.stripWord? (letter :: word) s = none := by
  obtain ⟨cs, rfl⟩ := List.head?_eq_some_iff.mp h
  simp [Text.stripWord?, hc]

/-- Whether a statement is none of the two that wrap a dump. -/
def IsPlain (s : Text) : Prop := opensTransaction s = false ∧ commitsTransaction s = false

/-- Only words that start with certain letters wrap a dump. -/
theorem isPlain_of_head {c : Char} (h : c ∈ s.head?)
    (hfold : ['B', 'C', 'E'].all (!Text.foldsTo · c)) : IsPlain s := by
  obtain ⟨hB, hC, hE⟩ : Text.foldsTo 'B' c = false ∧ Text.foldsTo 'C' c = false ∧
      Text.foldsTo 'E' c = false := by
    simpa using hfold
  have hbegin := stripWord?_eq_none "EGIN".toList h hB
  have hcommit := stripWord?_eq_none "OMMIT".toList h hC
  have hend := stripWord?_eq_none "ND".toList h hE
  refine ⟨?_, ?_⟩
  · simp only [opensTransaction]
    exact hbegin ▸ rfl
  · simp only [commitsTransaction, List.any_cons, List.any_nil, Bool.or_false, Bool.or_eq_false_iff]
    exact ⟨hcommit ▸ rfl, hend ▸ rfl⟩

theorem unwrap_eq_self {ss : List Text} (h : ∀ s ∈ ss, IsPlain s) : unwrap ss = ss := by
  have hfirst : ss.head?.any opensTransaction = false := by
    cases ss with
    | nil => rfl
    | cons s ss => exact (h s (List.mem_cons_self ..)).1
  have hlast : ss.getLast?.any commitsTransaction = false := by
    cases hl : ss.getLast? with
    | none => rfl
    | some s => exact (h s (List.mem_of_getLast? hl)).2
  simp [unwrap, hfirst, hlast]

end Script

theorem Document.ChangeStatement.isPlain {s : Text} (h : ChangeStatement s) : Script.IsPlain s := by
  cases h with
  | insert table b h => exact Script.isPlain_of_head (c := 'I') rfl (by decide)
  | update table u h => exact Script.isPlain_of_head (c := 'U') rfl (by decide)
  | delete table matching h => exact Script.isPlain_of_head (c := 'D') rfl (by decide)

end SqlInterchange
