import SqlInterchange.Proofs.Export.Compiled
import SqlInterchange.Proofs.Export.Completed
import SqlInterchange.Proofs.Operation.Effects
import SqlInterchange.Proofs.Statement.Written

/-! # Exports are stable

The tables of a database of texts are exported, their rows are inserted one by one into tables that
are empty, and these are exported.  The second document has the rows of the first, in their order,
with null where the first one has no value.  From then on nothing changes: inserted and exported
once more, the second document is itself (`export_is_stable`).

The reason is what an export is of: an export of a database of texts depends on what selecting from
its tables answers (`triple_export`), and an import appends what each row of the document stores
(`triple_import`).  The tables may be there before the import, or be made by it.
-/
namespace SqlInterchange
namespace Database

open RowStatement
open Activity (Triple)

/-! ## What an export is of -/

variable {tables : OrderedMap Layout} {made : Text → Text} {contents : Contents} {o : Options}

/-- The tables to take. -/
def taken (o : Options) (tables : OrderedMap Layout) : List (Text × Layout) :=
  tables.entries.filter fun e => o.includesTable e.1

/-- Their names. -/
def names (o : Options) (tables : OrderedMap Layout) : List Text := (taken o tables).map Prod.fst

theorem nodup_names (o : Options) (tables : OrderedMap Layout) : (names o tables).Nodup :=
  OrderedMap.nodup_filter tables.nodup

theorem names_eq (o : Options) (tables : OrderedMap Layout) :
    names o tables = tables.keys.filter o.includesTable := by
  rw [names, taken, OrderedMap.keys, List.filter_map]
  rfl

/-- The entry of the catalog for a table. -/
def entry (made : Text → Text) (table : Text) : Catalog.Entry :=
  ⟨.text "table".toList, table, table, .text (made table)⟩

/-- The definition of a table. -/
def definition (made : Text → Text) (table : Text) : Catalog.Definition :=
  ⟨table, true, made table⟩

theorem taken?_listing {table : Text} (h : Identifier.isReserved table = false) :
    Catalog.taken? o (listing table (made table)) =
      .ok (if o.includesTable table then some (entry made table) else none) := by
  have hcolumns : (listing table (made table)).get? "sql".toList = some (.text (made table)) ∧
      (listing table (made table)).get? "type".toList = some (.text "table".toList) ∧
      (listing table (made table)).get? "name".toList = some (.text table) ∧
      (listing table (made table)).get? "tbl_name".toList = some (.text table) :=
    ⟨rfl, rfl, rfl, rfl⟩
  obtain ⟨hsql, htype, hname, htable⟩ := hcolumns
  simp only [Catalog.taken?, Catalog.column, hsql, htype, hname, htable, Catalog.nameText]
  refine (if_neg (by simp [h])).trans ?_
  by_cases htaken : o.includesTable table
  · rw [if_pos htaken]
    exact if_neg (by simp [h, htaken])
  · rw [if_neg htaken]
    exact if_pos (by simp [htaken])

theorem entries_catalog (o : Options) (made : Text → Text)
    (h : ∀ table ∈ tables.keys, Identifier.isReserved table = false) :
    Catalog.entries o (catalog tables made) = .ok ((names o tables).map (entry made)) := by
  rw [names_eq, catalog]
  generalize tables.keys = keys at h
  induction keys with
  | nil => rfl
  | cons table rest ih =>
    obtain ⟨htable, hrest⟩ := List.forall_mem_cons.mp h
    rw [List.map_cons, Catalog.entries, taken?_listing htable, ih hrest]
    by_cases htaken : o.includesTable table
    · rw [if_pos htaken, List.filter_cons_of_pos htaken]
      rfl
    · rw [if_neg htaken, List.filter_cons_of_neg htaken]
      rfl

theorem tables_entry (made : Text → Text) (ts : List Text) :
    Catalog.tables (ts.map (entry made)) = ts := by
  have hall : ∀ e ∈ ts.map (entry made), e.isTable = true := by
    intro e he
    obtain ⟨table, -, rfl⟩ := List.mem_map.mp he
    rfl
  rw [Catalog.tables, List.filter_eq_self.mpr hall, List.map_map]
  exact List.map_id ts

theorem yields_catalog (o : Options) (made : Text → Text)
    (h : ∀ table ∈ tables.keys, Identifier.isReserved table = false) :
    Catalog.Yields o (catalog tables made) ((names o tables).map (entry made))
      ((names o tables).map (definition made)) where
  taken := entries_catalog o made h
  defined _ := by
    rw [List.forall₂_map_left_iff, List.forall₂_map_right_iff, List.forall₂_same]
    exact fun table _ => rfl

/-- What is exported. -/
def exported (o : Options) (tables : OrderedMap Layout) (made : Text → Text)
    (contents : Contents) : DocumentExport :=
  (Walk.read o ((names o tables).map (entry made)) ((names o tables).map (definition made))
    (answer tables contents)).toDocument (!o.isDataOnly) (!o.isStructureOnly)

/-- The rows of the tables to take as a section of a document. -/
def inserts (o : Options) (tables : OrderedMap Layout) (rows : Text × Layout → List Row) :
    OrderedMap (List Row) :=
  ⟨(taken o tables).map fun e => (e.1, rows e), by
    rw [List.map_map]
    exact nodup_names o tables⟩

theorem inserts_congr {rows rows' : Text × Layout → List Row}
    (h : ∀ e ∈ taken o tables, rows e = rows' e) :
    inserts o tables rows = inserts o tables rows' := by
  refine OrderedMap.ext (List.map_congr_left fun e he => ?_)
  rw [h e he]

theorem answers_eq (o : Options) (tables : OrderedMap Layout) (contents : Contents) :
    (names o tables).map (fun table => (table, answer tables contents table)) =
      (taken o tables).map fun e => (e.1, (contents e.1).map e.2.row) := by
  rw [names, List.map_map]
  refine List.map_congr_left fun e he => ?_
  rw [Function.comp_apply, answer, tables.get?_of_mem (List.mem_filter.mp he).1]
  rfl

/-- The rows of the exported document. -/
theorem changes?_exported (tables : OrderedMap Layout) (made : Text → Text) (contents : Contents)
    (ho : o.isStructureOnly = false) : (exported o tables made contents).document.changes? =
      some ⟨inserts o tables fun e => e.2.exported (contents e.1), .empty, .empty⟩ := by
  have hinserts : Snapshot.inserts ((taken o tables).map fun e =>
      (e.1, (contents e.1).map e.2.row)) =
        inserts o tables fun e => e.2.exported (contents e.1) := by
    refine OrderedMap.ext ?_
    rw [Snapshot.entries_inserts, List.map_map]
    · refine List.map_congr_left fun e _ => ?_
      show (e.1, Snapshot.documentRows ((contents e.1).map e.2.row)) = _
      rw [Layout.documentRows_row]
    · rw [List.map_map]
      exact nodup_names o tables
  simp only [exported, Snapshot.toDocument, Walk.read, tables_entry, answers_eq, ho,
    Bool.not_false, Bool.false_eq_true, if_true, if_false, hinserts]

/-- An export depends on what selecting from the tables answers. -/
theorem exported_congr {contents' : Contents} (h : ∀ e ∈ taken o tables,
    (contents e.1).map e.2.row = (contents' e.1).map e.2.row) :
    exported o tables made contents = exported o tables made contents' := by
  have hanswers : (taken o tables).map (fun e => (e.1, (contents e.1).map e.2.row)) =
      (taken o tables).map fun e => (e.1, (contents' e.1).map e.2.row) :=
    List.map_congr_left fun e he => by rw [h e he]
  simp only [exported, Walk.read, tables_entry, answers_eq, hanswers]

section Export

variable {σ ρ : Type} {b : Backend σ} {Holds : Contents → σ → Prop}

/-- A database of texts is exported. -/
theorem triple_export {call : Operation.Call σ} (hb : call.registry.adapt call.handle = .ok b)
    (hcallbacks : Operation.TakesResults call.callbacks) (h : Stores b tables made Holds)
    (hunreserved : ∀ table ∈ tables.keys, Identifier.isReserved table = false)
    (contents : Contents) :
    Triple (fun s : σ × ρ => Holds contents s.1) (Operation.exportDocument call) fun e? s =>
      e? = some (exported call.options tables made contents) ∧ Holds contents s.1 := by
  exact Operation.triple_exportDocument hb hcallbacks (h.serves contents)
    (yields_catalog call.options made hunreserved)

end Export

/-! ## What an import appends -/

/-- What is stored after a row of a document is inserted. -/
def store (contents : Contents) (x : Text × Row) : Contents := contents.append x.1 (stored x.2)

/-- The insert of one row. -/
def insertOf (x : Text × Row) : Text := renderInsert x.1 ⟨x.2, []⟩

/-- The rows of some tables, each with its table. -/
def placed (es : List (Text × Layout)) (rows : Text × Layout → List Row) : List (Text × Row) :=
  es.flatMap fun e => (rows e).map (e.1, ·)

/-- What is stored after rows are inserted into empty tables. -/
def imported (o : Options) (tables : OrderedMap Layout) (rows : Text × Layout → List Row) :
    Contents := (placed (taken o tables) rows).foldl store .empty

variable {rows : Text × Layout → List Row}

/-- A table gets the rows that are for it, in order. -/
theorem foldl_store (xs : List (Text × Row)) (contents : Contents) (table : Text) :
    xs.foldl store contents table =
      contents table ++ (xs.filter fun x => x.1 = table).map fun x => stored x.2 := by
  induction xs generalizing contents with
  | nil => simp
  | cons x xs ih =>
    rw [List.foldl_cons, ih, store, Contents.append]
    by_cases hx : x.1 = table
    · subst hx
      rw [Function.update_self, List.filter_cons, if_pos (decide_eq_true rfl), List.map_cons,
        List.append_assoc, List.singleton_append]
    · rw [Function.update_of_ne (Ne.symm hx), List.filter_cons, if_neg (by simpa using hx)]

theorem filter_placed {es : List (Text × Layout)} (hnodup : (es.map Prod.fst).Nodup)
    {e : Text × Layout} (he : e ∈ es) :
    (placed es rows).filter (fun x => x.1 = e.1) = (rows e).map (e.1, ·) := by
  induction es with
  | nil => cases he
  | cons f es ih =>
    obtain ⟨hf, hes⟩ := List.nodup_cons.mp hnodup
    rw [placed, List.flatMap_cons, List.filter_append]
    rcases List.mem_cons.mp he with rfl | he
    · -- no other table has the name
      have hown : ((rows e).map (e.1, ·)).filter (fun x => x.1 = e.1) = (rows e).map (e.1, ·) :=
        List.filter_eq_self.mpr fun x hx => by
          obtain ⟨row, -, rfl⟩ := List.mem_map.mp hx
          exact decide_eq_true rfl
      have hothers : (placed es rows).filter (fun x => x.1 = e.1) = [] :=
        List.filter_eq_nil_iff.mpr fun x hx hname => by
          obtain ⟨f, hfes, hrow⟩ := List.mem_flatMap.mp hx
          obtain ⟨row, -, rfl⟩ := List.mem_map.mp hrow
          exact hf (of_decide_eq_true hname ▸ List.mem_map_of_mem hfes)
      rw [hown, show es.flatMap _ = placed es rows from rfl, hothers, List.append_nil]
    · have hne : f.1 ≠ e.1 := fun heq => hf (heq ▸ List.mem_map_of_mem he)
      have hfirst : ((rows f).map (f.1, ·)).filter (fun x => x.1 = e.1) = [] :=
        List.filter_eq_nil_iff.mpr fun x hx => by
          obtain ⟨row, -, rfl⟩ := List.mem_map.mp hx
          simpa using hne
      rw [hfirst, List.nil_append]
      exact ih hes he

theorem imported_of_mem {e : Text × Layout} (he : e ∈ taken o tables) :
    imported o tables rows e.1 = (rows e).map stored := by
  rw [imported, foldl_store, filter_placed (nodup_names o tables) he, List.map_map]
  rfl

/-- The statements for the rows of a document that only inserts. -/
theorem compileChanges_inserts (o : Options) (rows : Text × Layout → List Row)
    (hunreserved : ∀ table ∈ tables.keys, Identifier.isReserved table = false) :
    Document.compileChanges 1 ⟨inserts o tables rows, .empty, .empty⟩ =
      (placed (taken o tables) rows).map insertOf := by
  have hkeys : ∀ table ∈ (inserts o tables rows).keys, Identifier.isReserved table = false := by
    intro table htable
    obtain ⟨x, hx, rfl⟩ := List.mem_map.mp htable
    obtain ⟨e, he, rfl⟩ := List.mem_map.mp hx
    exact hunreserved e.1 (List.mem_map_of_mem (List.mem_filter.mp he).1)
  rw [Document.compileChanges_one hkeys, inserts, List.flatMap_map, placed, List.map_flatMap]
  refine congrArg (List.flatMap · _) (funext fun e => ?_)
  rw [List.map_map]
  rfl

section Import

variable {σ ρ : Type} {b : Backend σ} {Holds : Contents → σ → Prop} {Fresh : σ → Prop}

/-- Whether the schema statements of a document make the tables, without rows, where `Fresh` holds,
and the deferred ones among them leave the rows as they are. -/
structure Makes (b : Backend σ) (Fresh : σ → Prop) (Holds : Contents → σ → Prop)
    (schema : Compiled) : Prop where
  begins : b.Begins Fresh
  main : b.Executes Fresh schema.main (Holds .empty)
  deferred : ∀ contents, b.Executes (Holds contents) schema.deferred (Holds contents)

/-- Without schema statements the tables are there before. -/
theorem Stores.makes (h : Stores b tables made Holds) : Makes b (Holds .empty) Holds ⟨[], []⟩ :=
  ⟨h.begins .empty, .nil _, fun contents => .nil (Holds contents)⟩

/-- The insert of a row appends it. -/
theorem Stores.effects (h : Stores b tables made Holds) {x : Text × Row} {l : Layout}
    (hl : l ∈ tables.get? x.1) (hfits : l.Fits x.2) : b.Effects Holds store insertOf x := by
  intro contents c hc
  have hread : Insertion.read? (insertOf x) = some ⟨x.1, x.2.keys, [cells x.2.keys x.2]⟩ :=
    Insertion.read?_renderInsert x.1 (b := ⟨x.2, []⟩) hfits.1
  obtain ⟨answer, c', hsubmit, hc'⟩ := h.inserted contents c hc _ _ _ _ hread l hl hfits.2
  rw [row_cells x.2.sameKeys_self] at hc'
  exact ⟨answer, c', hsubmit, hc'⟩

/-- The rows of a document are imported into empty tables. -/
theorem triple_import {call : Operation.Call σ} (hb : call.registry.adapt call.handle = .ok b)
    (hcallbacks : Operation.LetsGo call.callbacks) (h : Stores b tables made Holds)
    (hunreserved : ∀ table ∈ tables.keys, Identifier.isReserved table = false)
    (hchanges : call.options.isStructureOnly = false) (hsize : call.options.batchInsertSize = 1)
    {source : Source} {d : Document} (hsource : Document.parse source = .ok d)
    (hd : d.changes? = some ⟨inserts o tables rows, .empty, .empty⟩)
    (hmakes : Makes b Fresh Holds (d.compiledSchema (.ofOptions call.options)))
    (hfits : ∀ e ∈ tables.entries, ∀ row ∈ rows e, e.2.Fits row) :
    Triple (fun s : σ × ρ => Fresh s.1) (Operation.importDocument call source) fun n? s =>
      n?.isSome ∧ Holds (imported o tables rows) s.1 := by
  have hmain : (d.compile (.ofOptions call.options)).main =
      (d.compiledSchema (.ofOptions call.options)).main ++
        (placed (taken o tables) rows).map insertOf := by
    rw [← compileChanges_inserts o rows hunreserved, Document.compile_eq]
    simp only [Document.changesIn, Scope.ofOptions, hchanges, hd, hsize, Bool.not_false, if_true,
      Option.map_some, Option.getD_some]
  have heffects : ∀ x ∈ placed (taken o tables) rows, b.Effects Holds store insertOf x := by
    intro x hx
    obtain ⟨e, he, hplaced⟩ := List.mem_flatMap.mp hx
    obtain ⟨row, hrow, rfl⟩ := List.mem_map.mp hplaced
    have hmem := (List.mem_filter.mp he).1
    exact h.effects (tables.get?_of_mem hmem) (hfits e hmem row hrow)
  refine Operation.triple_importDocument hb hcallbacks hsource hmakes.begins
    ⟨h.commits _, h.begins _⟩ (h.commits _) ?_ (hmakes.deferred _)
  rw [hmain]
  exact hmakes.main.append (.of_effects heffects .empty)

end Import

end Database

/-! ## Export, import, export -/

namespace Operation

open Database

variable {σ σ' ρ ρ' : Type} {b : Backend σ} {b' : Backend σ'} {tables : OrderedMap Layout}
  {made made' : Text → Text} {Holds : Contents → σ → Prop} {Holds' : Contents → σ' → Prop}
  {Fresh : σ → Prop} {importing exporting : Call σ}

/-- Whether calls import rows one by one into a database of texts and export its rows. -/
structure Exchanges (importing exporting : Call σ) (b : Backend σ) (tables : OrderedMap Layout)
    (made : Text → Text) (Holds : Contents → σ → Prop) : Prop where
  importsInto : importing.registry.adapt importing.handle = .ok b
  exportsFrom : exporting.registry.adapt exporting.handle = .ok b
  goes : LetsGo importing.callbacks
  results : TakesResults exporting.callbacks
  importsRows : importing.options.isStructureOnly = false
  exportsRows : exporting.options.isStructureOnly = false
  oneByOne : importing.options.batchInsertSize = 1
  stores : Stores b tables made Holds
  unreserved : ∀ table ∈ tables.keys, Identifier.isReserved table = false

/-- Whether a document is imported where `Fresh` holds, and what is there then is exported as
`e`. -/
def Reexports (ρ : Type) (importing exporting : Call σ) (Fresh : σ → Prop) (d : Document)
    (e : DocumentExport) : Prop :=
  ∀ source, Document.parse source = .ok d → ∀ s : σ × ρ, Fresh s.1 →
    ∃ n, (importDocument importing source s).outcome = .ok (some n) ∧
      (exportDocument exporting (importDocument importing source s).state).outcome = .ok (some e)

/-- Rows that can be inserted are exported as what they store. -/
theorem Exchanges.reexports (h : Exchanges importing exporting b tables made Holds) {d : Document}
    {rows : Text × Layout → List Row}
    (hd : d.changes? = some ⟨inserts exporting.options tables rows, .empty, .empty⟩)
    (hfits : ∀ e ∈ tables.entries, ∀ row ∈ rows e, e.2.Fits row)
    (hmakes : Makes b Fresh Holds (d.compiledSchema (.ofOptions importing.options))) :
    Reexports ρ importing exporting Fresh d
      (exported exporting.options tables made (imported exporting.options tables rows)) := by
  intro source hsource s hs
  obtain ⟨n?, s', _, himport, hn, hs'⟩ := triple_import h.importsInto h.goes h.stores h.unreserved
    h.importsRows h.oneByOne hsource hd hmakes hfits s hs
  obtain ⟨n, rfl⟩ := Option.isSome_iff_exists.mp hn
  obtain ⟨_, _, _, hexport, rfl, -⟩ :=
    triple_export h.exportsFrom h.results h.stores h.unreserved _ s' hs'
  refine ⟨n, congrArg Record.outcome himport, ?_⟩
  rw [himport, hexport]

/-- **Main: exports are stable.**  Let tables that are not reserved have texts or nothing in their
cells.  Their document has each row of which not all columns hold `undefined`, with the values of
the columns that hold something else.  Let it be imported, row by row, into empty tables with the
same columns, which are there before or are made by its schema statements.  They are exported with
the same rows in the same order, and null where a row had no value.  Imported into empty tables and
exported once more, the second document is itself. -/
theorem export_is_stable {origin : Call σ'}
    (horigin : origin.registry.adapt origin.handle = .ok b')
    (hresults : TakesResults origin.callbacks) (hoptions : origin.options = exporting.options)
    (hstores : Stores b' tables made' Holds')
    (hexchanges : Exchanges importing exporting b tables made Holds)
    (contents : Contents) (s : σ' × ρ') (hs : Holds' contents s.1) :
    let schema (d : Document) := d.compiledSchema (.ofOptions importing.options)
    ∃ e₁ e₂, (exportDocument origin s).outcome = .ok (some e₁) ∧
      e₁.document.changes? = some
        ⟨inserts exporting.options tables fun e =>
          (e.2.shown (contents e.1)).map e.2.recovered, .empty, .empty⟩ ∧
      e₂.document.changes? = some
        ⟨inserts exporting.options tables fun e =>
          ((e.2.shown (contents e.1)).map e.2.recovered).map e.2.complete, .empty, .empty⟩ ∧
      (Makes b Fresh Holds (schema e₁.document) →
        Reexports ρ importing exporting Fresh e₁.document e₂) ∧
      (Makes b Fresh Holds (schema e₂.document) →
        Reexports ρ importing exporting Fresh e₂.document e₂) := by
  intro schema
  let o := exporting.options
  let first : Text × Layout → List Row := fun e => e.2.exported (contents e.1)
  let second : Text × Layout → List Row := fun e => (first e).map e.2.complete
  have hfirst := changes?_exported tables made' contents hexchanges.exportsRows
  have hsecond : (exported o tables made (imported o tables first)).document.changes? =
      some ⟨inserts o tables second, .empty, .empty⟩ := by
    rw [changes?_exported tables made (imported o tables first) hexchanges.exportsRows]
    refine congrArg (fun m => some (Changes.mk m .empty .empty)) (inserts_congr fun e he => ?_)
    rw [imported_of_mem he]
    exact e.2.exported_stored_exported (contents e.1)
  have hsame : exported o tables made (imported o tables second) =
      exported o tables made (imported o tables first) := by
    refine exported_congr fun e he => ?_
    rw [imported_of_mem he, imported_of_mem he]
    exact e.2.map_row_stored_complete (first e)
  obtain ⟨_, _, _, hexport, rfl, -⟩ :=
    triple_export horigin hresults hstores hexchanges.unreserved contents s hs
  rw [hoptions] at hexport
  refine ⟨_, _, congrArg Record.outcome hexport, hfirst, hsecond, ?_, fun hmakes => ?_⟩
  · exact hexchanges.reexports hfirst fun e _ row hrow => Layout.fits_of_mem_exported hrow
  · have hagain : Reexports ρ importing exporting Fresh _ _ :=
      hexchanges.reexports hsecond (fun e _ completed hcompleted => by
        obtain ⟨row, hrow, rfl⟩ := List.mem_map.mp hcompleted
        exact (Layout.fits_of_mem_exported hrow).complete) hmakes
    rwa [hsame] at hagain

/-! ### Three rows -/

/-- A table of two columns. -/
def pairs : OrderedMap Layout where
  entries := [("t".toList, ⟨["a".toList, "b".toList], by decide⟩)]
  nodup := by decide

/-- The statement that made it. -/
def madePairs (_ : Text) : Text := "CREATE TABLE t (a, b)".toList

/-- A row of that table. -/
def pair (a b : String) (column : Text) : Token.Cell :=
  if column = "a".toList then some a.toList else some b.toList

/-- Three rows with the words that stand for values, one of them without any other text. -/
def wordy : Contents := fun table =>
  if table = "t".toList then
    [pair "undefined" "it's", pair "undefined" "undefined", pair "true" "null"]
  else []

/-- Exports of that table. -/
def pairsOut : Call Contents where
  registry := .standard
  handle := .backend (.engine (connection pairs madePairs))
  options := .standard
  callbacks := ⟨none, none, none⟩

theorem keeps_rows :
    ¬((Value.bool true).isTruthy = true ∧ Options.standard.structureOnly.isTruthy = true) :=
  fun both => Bool.false_ne_true both.2

/-- Imports of data, row by row. -/
def pairsIn : Call Contents :=
  { pairsOut with
    options :=
      { Options.standard with
        dataOnly := .bool true
        batchInsertSize := 1
        one_le_batchInsertSize := Options.one_le_single
        not_both := keeps_rows } }

/-- The rows of a document, with their columns and values. -/
def fields (d : Document) : List (Text × List (List (Text × Value))) :=
  d.changes?.elim [] fun c => c.inserts.entries.map fun e => (e.1, e.2.map OrderedMap.entries)

/-- The first document has two of the rows, the second one has all columns of these. -/
theorem wordy_export_is_stable : ∃ e₁ e₂,
    (exportDocument pairsOut (wordy, ())).outcome = .ok (some e₁) ∧
      fields e₁.document = [("t".toList,
        [[("b".toList, .text "it's".toList)],
          [("a".toList, .bool true), ("b".toList, .null)]])] ∧
      fields e₂.document = [("t".toList,
        [[("a".toList, .null), ("b".toList, .text "it's".toList)],
          [("a".toList, .bool true), ("b".toList, .null)]])] ∧
      Reexports Unit pairsIn pairsOut (Eq Contents.empty) e₁.document e₂ ∧
      Reexports Unit pairsIn pairsOut (Eq Contents.empty) e₂.document e₂ := by
  have hstores := stores_connection pairs madePairs
  have hgo : LetsGo pairsIn.callbacks := ⟨fun _ h => (nomatch h), fun _ _ => rfl⟩
  have hexchanges : Exchanges pairsIn pairsOut (.engine (connection pairs madePairs)) pairs
      madePairs Eq :=
    { importsInto := rfl
      exportsFrom := rfl
      goes := hgo
      results := hgo.results
      importsRows := rfl
      exportsRows := rfl
      oneByOne := rfl
      stores := hstores
      unreserved := by decide +kernel }
  have hmakes (d : Document) : Makes (.engine (connection pairs madePairs)) (Eq Contents.empty) Eq
      (d.compiledSchema (.ofOptions pairsIn.options)) := by
    have hnone : d.schemaIn (.ofOptions pairsIn.options) = none := rfl
    rw [Document.compiledSchema_of_no_schema hnone]
    exact hstores.makes
  obtain ⟨e₁, e₂, hexport, hfirst, hsecond, honce, hagain⟩ := export_is_stable
    hexchanges.exportsFrom hexchanges.results rfl hstores hexchanges wordy (wordy, ()) rfl
  refine ⟨e₁, e₂, hexport, ?_, ?_, honce (hmakes e₁.document), hagain (hmakes e₂.document)⟩
  · rw [fields, hfirst]
    rfl
  · rw [fields, hsecond]
    rfl

end Operation
end SqlInterchange
