import SqlInterchange.Proofs.Export.Compiled
import SqlInterchange.Proofs.Operation.Reported
import SqlInterchange.Proofs.Script.Verbatim
import SqlInterchange.Proofs.Statement.Sections

/-! # Exported documents are counted

With a document an export gives a number: two statements for each table, one for each further
schema statement and one for each row.  It is the number of the statements that the document is
compiled to, row by row (`export_counts_statements`).

On the way from the catalog to the statements some are left out: entries of reserved tables, schema
statements with nothing in them but blanks and semicolons, and of a table that comes twice all but
one.  None of this happens to what is exported: the export has left out reserved tables before,
and the others are excluded by what is asked of the catalog.
-/
namespace SqlInterchange

/-! ## Statements with something in them -/

namespace Text

theorem mem_collapseBlanks_of_mem {t : Text} {c : Char} (hc : c ∈ t) (hblank : isBlank c = false)
    (afterBlank : Bool) : c ∈ collapseBlanks afterBlank t := by
  induction t generalizing afterBlank with
  | nil => cases hc
  | cons d t ih =>
    rw [collapseBlanks]
    rcases List.mem_cons.mp hc with rfl | hc
    · rw [hblank]
      exact List.mem_cons_self ..
    · split
      · split
        · exact ih hc true
        · exact List.mem_cons_of_mem _ (ih hc true)
      · exact List.mem_cons_of_mem _ (ih hc false)

end Text

/-- Whether a statement has something in it but blanks and semicolons. -/
def SchemaStatement.IsFilled (statement : Text) : Prop :=
  ∃ c ∈ statement, Text.isBlank c = false ∧ c ≠ ';'

namespace SchemaStatement

/-- On one line and cleaned, something is left of such a statement. -/
theorem IsFilled.clean_squeeze {sql : Text} (h : IsFilled sql) : clean (Text.squeeze sql) ≠ [] := by
  obtain ⟨c, hc, hblank, hsemicolon⟩ := h
  have hsqueeze : c ∈ Text.squeeze sql :=
    Text.mem_trim (Text.mem_collapseBlanks_of_mem hc hblank false) hblank
  have hended : c ∈ Text.dropEndWhile (· == ';') (Text.trim (Text.squeeze sql)) :=
    Text.mem_dropEndWhile (Text.mem_trim hsqueeze hblank) (beq_false_of_ne hsemicolon)
  exact List.ne_nil_of_mem (Text.mem_dropEndWhile hended hblank)

/-- Statements that have something in them are all left. -/
theorem length_cleaned {statements : List Text} (h : ∀ t ∈ statements, clean t ≠ []) :
    (cleaned statements).length = statements.length := by
  have hcleaned : cleaned statements = statements.map clean := by
    refine List.filter_eq_self.mpr fun t ht => ?_
    obtain ⟨statement, hstatement, rfl⟩ := List.mem_map.mp ht
    simpa using h statement hstatement
  rw [hcleaned, List.length_map]

end SchemaStatement

/-! ## The two halves of a document -/

namespace Document

/-- The statements of a document are those of its halves. -/
theorem total_compile (scope : Scope) (d : Document) : (d.compile scope).total =
    ((d.schemaIn scope).map fun s => (compileSchema s).total).getD 0 +
      ((d.changesIn scope).map fun c =>
        (compileChanges scope.batchInsertSize c).length).getD 0 := by
  rw [Compiled.total, compile]
  cases d.schemaIn scope <;> cases d.changesIn scope <;>
    simp [Compiled.total, Nat.add_right_comm]

/-- If no table is reserved and no further statement blank, nothing is left out. -/
theorem total_compileSchema_of_filled {s : Schema}
    (htables : ∀ table ∈ s.tables.keys, Identifier.isReserved table = false)
    (hothers : ∀ t ∈ s.otherSql, SchemaStatement.clean t ≠ []) :
    (compileSchema s).total = 2 * s.tables.entries.length + s.otherSql.length := by
  have hkept : kept s.tables = s.tables.entries :=
    congrArg OrderedMap.entries (unreserved_eq_self htables)
  rw [total_compileSchema, hkept, SchemaStatement.length_cleaned hothers]

end Document

namespace Snapshot

open Catalog (Definition)

theorem sublist_tableClauses (ds : List Definition) : ((tableClauses ds).map Prod.fst).Sublist
    ((ds.filter Definition.isTable).map Definition.name) := by
  induction ds with
  | nil => exact .slnil
  | cons d ds ih =>
    cases hclause : d.clause? with
    | none =>
      have hrest : tableClauses (d :: ds) = tableClauses ds := by simp [tableClauses, hclause]
      rw [hrest]
      exact ih.trans (((List.sublist_cons_self d ds).filter _).map _)
    | some clause =>
      have htable : d.isTable = true := by
        by_contra hnot
        rw [Definition.clause?, if_neg hnot] at hclause
        cases hclause
      have hfirst : tableClauses (d :: ds) = (d.name, clause) :: tableClauses ds := by
        simp [tableClauses, hclause]
      rw [hfirst, List.filter_cons_of_pos htable]
      exact ih.cons_cons d.name

/-- What is asked of definitions so that nothing of them is left out: their tables are told apart
and the user's, and their statements have something in them. -/
structure Countable (ds : List Definition) : Prop where
  distinct : ((ds.filter Definition.isTable).map Definition.name).Nodup
  unreserved : ∀ table ∈ (ds.filter Definition.isTable).map Definition.name,
    Identifier.isReserved table = false
  filled : ∀ d ∈ ds, SchemaStatement.IsFilled d.sql

/-- The shape of the tables of some definitions has as many statements as are counted. -/
theorem total_definitions {ds : List Definition} (h : Countable ds) :
    (Document.compileSchema ⟨.ofList (tableClauses ds), otherStatements ds⟩).total =
      2 * (tableClauses ds).length + (otherStatements ds).length := by
  have hsublist := sublist_tableClauses ds
  have hentries : (OrderedMap.ofList (tableClauses ds)).entries = tableClauses ds :=
    OrderedMap.entries_ofList (h.distinct.sublist hsublist)
  rw [Document.total_compileSchema_of_filled, hentries]
  · intro table htable
    rw [OrderedMap.keys, hentries] at htable
    exact h.unreserved table (hsublist.subset htable)
  · intro t ht
    obtain ⟨d, hd, rfl⟩ := List.mem_map.mp ht
    exact (h.filled d (List.mem_filter.mp hd).1).clean_squeeze

/-- The changes of a snapshot have one statement for each of its rows. -/
theorem length_inserts {contents : List (Text × List Row)} (hnodup : (contents.map Prod.fst).Nodup)
    (hunreserved : ∀ table ∈ contents.map Prod.fst, Identifier.isReserved table = false) :
    (Document.compileChanges 1 ⟨inserts contents, .empty, .empty⟩).length =
      (contents.flatMap fun e => documentRows e.2).length := by
  rw [compileChanges_inserts hnodup hunreserved, List.length_flatMap, List.length_flatMap]
  simp only [List.length_map]

end Snapshot

/-! ## What is read -/

namespace Walk

variable {o : Options} {catalog : List Row} {es : List Catalog.Entry}
  {ds : List Catalog.Definition} {stored : Text → List Row}

theorem definition?_eq_ok {e : Catalog.Entry} {d : Catalog.Definition}
    (h : e.definition? = .ok d) :
    e.definition = .text d.sql ∧ d.name = e.name ∧ d.isTable = e.isTable := by
  unfold Catalog.Entry.definition? at h
  split at h
  · next sql hsql =>
    obtain rfl := Except.ok.inj h
    exact ⟨hsql, rfl, rfl⟩
  · cases h

theorem tables_definitions
    (h : List.Forall₂ (fun e d => Catalog.Entry.definition? e = .ok d) es ds) :
    (ds.filter Catalog.Definition.isTable).map Catalog.Definition.name = Catalog.tables es := by
  induction h with
  | nil => rfl
  | cons hd _ ih =>
    obtain ⟨-, hname, htable⟩ := definition?_eq_ok hd
    simp only [Catalog.tables, List.filter_cons, htable] at ih ⊢
    split
    · rw [List.map_cons, List.map_cons, hname, ih]
    · exact ih

theorem exists_of_mem_definitions
    (h : List.Forall₂ (fun e d => Catalog.Entry.definition? e = .ok d) es ds)
    {d : Catalog.Definition} (hd : d ∈ ds) : ∃ e ∈ es, e.definition = .text d.sql := by
  induction h with
  | nil => cases hd
  | @cons e _ es _ hfirst _ ih =>
    rcases List.mem_cons.mp hd with rfl | hd
    · exact ⟨e, List.mem_cons_self .., (definition?_eq_ok hfirst).1⟩
    · obtain ⟨e', he', hsql⟩ := ih hd
      exact ⟨e', List.mem_cons_of_mem _ he', hsql⟩

theorem countable_read (hcatalog : Catalog.Yields o catalog es ds)
    (hdistinct : (Catalog.tableNames catalog).Nodup)
    (hfilled : ∀ row ∈ catalog, ∀ sql, Catalog.said? row "sql" = some sql →
      SchemaStatement.IsFilled sql) : Snapshot.Countable (read o es ds stored).definitions := by
  cases hdata : o.isDataOnly with
  | true =>
    have hnone : (read o es ds stored).definitions = [] := if_pos hdata
    rw [hnone]
    exact ⟨.nil, by simp, by simp⟩
  | false =>
    have hall : (read o es ds stored).definitions = ds := if_neg (by simp [hdata])
    have hdefined := hcatalog.defined hdata
    rw [hall]
    refine ⟨?_, ?_, fun d hd => ?_⟩
    · rw [tables_definitions hdefined]
      exact hdistinct.sublist hcatalog.listed
    · rw [tables_definitions hdefined]
      exact fun table => Catalog.unreserved_of_mem_tables hcatalog.taken
    · obtain ⟨e, he, hsql⟩ := exists_of_mem_definitions hdefined hd
      obtain ⟨row, hrow, hof⟩ := Catalog.exists_isOf_of_mem hcatalog.taken he
      refine hfilled row hrow d.sql ?_
      rw [Catalog.said?, hof.definition, hsql]
      rfl

/-- The count of what is read is the number of statements of its document. -/
theorem count_read (hcatalog : Catalog.Yields o catalog es ds)
    (hdistinct : (Catalog.tableNames catalog).Nodup)
    (hfilled : ∀ row ∈ catalog, ∀ sql, Catalog.said? row "sql" = some sql →
      SchemaStatement.IsFilled sql) {scope : Scope} (hsize : scope.batchInsertSize = 1)
    (hschema : scope.includeSchema = true) (hchanges : scope.includeChanges = true) :
    let e := (read o es ds stored).toDocument (!o.isDataOnly) (!o.isStructureOnly)
    e.count = (e.document.compile scope).total := by
  intro e
  have hcountable : Snapshot.Countable (read o es ds stored).definitions :=
    countable_read hcatalog hdistinct hfilled
  have hsublist : ((read o es ds stored).contents.map Prod.fst).Sublist (Catalog.tables es) :=
    sublist_names_read
  have hschemas :
      ((e.document.schemaIn scope).map fun s => (Document.compileSchema s).total).getD 0 =
        2 * (Snapshot.tableClauses (read o es ds stored).definitions).length +
          (Snapshot.otherStatements (read o es ds stored).definitions).length := by
    rw [Document.schemaIn, if_pos hschema]
    cases hdata : o.isDataOnly with
    | true =>
      simp only [e, Snapshot.toDocument, read, hdata]
      rfl
    | false =>
      simp only [e, Snapshot.toDocument, hdata]
      exact Snapshot.total_definitions hcountable
  have hrows : ((e.document.changesIn scope).map fun c =>
      (Document.compileChanges scope.batchInsertSize c).length).getD 0 =
        ((read o es ds stored).contents.flatMap fun f => Snapshot.documentRows f.2).length := by
    rw [Document.changesIn, if_pos hchanges, hsize]
    cases hstructure : o.isStructureOnly with
    | true =>
      simp only [e, Snapshot.toDocument, read, hstructure]
      rfl
    | false =>
      simp only [e, Snapshot.toDocument, hstructure]
      refine Snapshot.length_inserts ((hdistinct.sublist hcatalog.listed).sublist hsublist) ?_
      exact fun table htable =>
        Catalog.unreserved_of_mem_tables hcatalog.taken (hsublist.subset htable)
  rw [Document.total_compile, hschemas, hrows]
  rfl

end Walk

namespace Operation

variable {σ ρ : Type}

/-- **Main.** The number that an export gives with a document is the number of the statements that
the document is compiled to in batches of one row.  The database has a catalog that lists each table
once and whose statements have something in them, and its tables have any rows. -/
theorem export_counts_statements {call : Call σ} {b : Backend σ} {Holds : σ → Prop}
    {catalog : List Row} {stored : Text → List Row} {es : List Catalog.Entry}
    {ds : List Catalog.Definition} (hb : call.registry.adapt call.handle = .ok b)
    (hcallbacks : TakesResults call.callbacks) (hserves : Walk.Serves b Holds catalog stored)
    (hcatalog : Catalog.Yields call.options catalog es ds)
    (hdistinct : (Catalog.tableNames catalog).Nodup)
    (hfilled : ∀ row ∈ catalog, ∀ sql, Catalog.said? row "sql" = some sql →
      ∃ c ∈ sql, Text.isBlank c = false ∧ c ≠ ';')
    {compiling : Options} (hsize : compiling.batchInsertSize = 1)
    (hschema : compiling.isDataOnly = false) (hchanges : compiling.isStructureOnly = false)
    (s : σ × ρ) (hs : Holds s.1) :
    ∃ e c, (exportDocument call s).outcome = .ok (some e) ∧
      (∀ s' : σ × ρ, (compiled (.ofOptions compiling) (.document e.document) s').outcome = .ok c) ∧
      e.count = c.total := by
  obtain ⟨_, s₁, events, hexport, rfl, -⟩ :=
    triple_exportDocument hb hcallbacks hserves hcatalog s hs
  let e := (Walk.read call.options es ds stored).toDocument (!call.options.isDataOnly)
    (!call.options.isStructureOnly)
  refine ⟨e, e.document.compile (.ofOptions compiling), congrArg Record.outcome hexport,
    fun s' => ?_, ?_⟩
  · exact congrArg Record.outcome (compiled_apply rfl (.ofOptions compiling) s')
  · exact Walk.count_read hcatalog hdistinct hfilled hsize (by simp [Scope.ofOptions, hschema])
      (by simp [Scope.ofOptions, hchanges])

/-- Options to compile all of a document, row by row. -/
def rowByRow : Options :=
  ⟨.bool false, .bool false, none, 1, Options.one_le_single, Options.standard.not_both⟩

/-- The sparse database has an index without a statement, a table without rows and a row without
values. -/
theorem sparse_export_counts : ∃ e c,
    (exportDocument sparseCall (sparse false, ())).outcome = .ok (some e) ∧
      (compiled (.ofOptions rowByRow) (.document e.document) (sparse true, ())).outcome = .ok c ∧
      e.count = c.total := by
  obtain ⟨es, ds, hcatalog⟩ := Catalog.exists_yields sparseCall.options isTextual_sparse
  have hdistinct : (Catalog.tableNames (sparseAnswer Catalog.query)).Nodup := by
    rw [tableNames_sparse]
    decide
  have hfilled : ∀ row ∈ sparseAnswer Catalog.query, ∀ sql, Catalog.said? row "sql" = some sql →
      ∃ c ∈ sql, Text.isBlank c = false ∧ c ≠ ';' := by
    refine List.forall_mem_cons.mpr ⟨?_, List.forall_mem_cons.mpr ⟨?_,
      List.forall_mem_singleton.mpr ?_⟩⟩
    · rintro sql ⟨⟩
      exact ⟨'C', by decide, rfl, by decide⟩
    · rintro sql ⟨⟩
    · rintro sql ⟨⟩
      exact ⟨'C', by decide, rfl, by decide⟩
  have hb : sparseCall.registry.adapt sparseCall.handle = .ok (.engine Scripted.connection) := rfl
  have hsize : rowByRow.batchInsertSize = 1 := rfl
  obtain ⟨e, c, hexport, hcompiled, hcount⟩ := export_counts_statements hb
    (fun _ h => nomatch h) serves_sparse hcatalog hdistinct hfilled hsize rfl rfl
    (sparse false, ()) ⟨false, rfl⟩
  exact ⟨e, c, hexport, hcompiled (sparse true, ()), hcount⟩

end Operation
end SqlInterchange
