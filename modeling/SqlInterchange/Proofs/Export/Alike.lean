import SqlInterchange.Proofs.Export.Compiled
import SqlInterchange.Proofs.Export.Completed
import SqlInterchange.Proofs.Operation.Reported

/-! # A script and a document have the same rows

The rows of a database are exported as a script, which has them as they are stored, or as a
document, which has the values that they stand for and is compiled to statements later.  The two
write a row differently, `VALUES (...)` here and `SELECT ... AS ...` there.  What is written is the
same all the same: the table, the columns and the literals (`exports_are_alike`).

The reason is in the literals.  A stored text that stands for a truth value is written as the word
that is stored (`render_recover`); of the other texts only `null` and `undefined` stand for
anything but themselves.
-/
namespace SqlInterchange

/-! ## The parts of an insert -/

namespace RowStatement

/-- The parts of a statement that inserts one row, as they are written. -/
structure Parts where
  /-- The table. -/
  target : Text
  /-- The columns. -/
  columns : List Text
  /-- The values, in the order of the columns. -/
  literals : List Text

namespace Parts

/-- What stands before the values. -/
def head (p : Parts) : Text :=
  "INSERT OR REPLACE INTO ".toList ++ p.target ++ '(' :: Text.joinWith ", " p.columns

/-- The statement with a list of values. -/
def values (p : Parts) : Text :=
  p.head ++ ") VALUES (".toList ++ Text.joinWith ", " p.literals ++ [')']

/-- The statement with a selection, in which each value has the name of its column. -/
def selection (p : Parts) : Text :=
  p.head ++ ") SELECT ".toList ++ Text.joinWith ", "
    (List.zipWith (fun literal column => literal ++ " AS ".toList ++ column) p.literals p.columns)

/-- The parts of a statement for a row that is stored. -/
def ofStored (table : Text) (row : Row) : Parts :=
  ⟨Identifier.escape table, row.keys.map Identifier.escape, row.values.map Literal.renderStored⟩

end Parts

theorem renderStored_eq (table : Text) (row : Row) :
    renderStored table row = (Parts.ofStored table row).values := by
  unfold renderStored Parts.values Parts.head Parts.ofStored columnList
  simp only [List.append_assoc, List.cons_append]

theorem renderInsert_eq (table : Text) (row : Row) : renderInsert table ⟨row, []⟩ =
    (Parts.mk (Identifier.escape table) (row.keys.map Identifier.escape)
      (row.values.map Literal.render)).selection := by
  have hselection : List.zipWith (fun literal column => literal ++ " AS ".toList ++ column)
      (row.values.map Literal.render) (row.keys.map Identifier.escape) =
        row.entries.map fun e => Literal.render e.2 ++ " AS ".toList ++ Identifier.escape e.1 := by
    rw [OrderedMap.values, OrderedMap.keys, List.map_map, List.map_map, List.zipWith_map,
      List.zipWith_self]
    rfl
  unfold renderInsert Parts.selection Parts.head projection columnList
  rw [hselection]
  simp only [List.flatMap_nil, List.append_nil, List.append_assoc, List.cons_append]

/-- Whether a row has columns, and scalars in them that stand for themselves or for truth values. -/
structure IsPlain (row : Row) : Prop where
  filled : row.entries ≠ []
  scalar : ∀ v ∈ row.values, v.isScalar = true
  notNull : ∀ v ∈ row.values, v.text? ≠ some "null".toList
  notUndefined : ∀ v ∈ row.values, v.text? ≠ some "undefined".toList

end RowStatement

/-! ## What is stored and what it stands for -/

namespace Literal

/-- A scalar that does not stand for null or for absence is written like what it stands for, which
is something. -/
theorem render_recover {v : Value} (hscalar : v.isScalar = true)
    (hnull : v.text? ≠ some "null".toList) (hundefined : v.text? ≠ some "undefined".toList) :
    render (recover v) = renderStored v ∧ recover v ≠ .absent := by
  cases v with
  | text t =>
    rcases ofStoredText_cases t with rfl | rfl | rfl | rfl | htext
    · exact ⟨rfl, nofun⟩
    · exact ⟨rfl, nofun⟩
    · exact absurd rfl hnull
    · exact absurd rfl hundefined
    · have hrecover : recover (.text t) = .text t := htext
      rw [hrecover]
      exact ⟨rfl, nofun⟩
  | bytes bs => cases hscalar
  | absent => cases hscalar
  | list items => cases hscalar
  | object fields => cases hscalar
  | _ => exact ⟨rfl, nofun⟩

end Literal

namespace Snapshot

open RowStatement

variable {row : Row}

theorem render_recover_of_isPlain (h : IsPlain row) {e : Text × Value} (he : e ∈ row.entries) :
    Literal.render (Literal.recover e.2) = Literal.renderStored e.2 ∧
      Literal.recover e.2 ≠ .absent := by
  have hvalue : e.2 ∈ row.values := List.mem_map_of_mem he
  exact Literal.render_recover (h.scalar _ hvalue) (h.notNull _ hvalue) (h.notUndefined _ hvalue)

/-- A plain row keeps all its columns. -/
theorem entries_recoverRow (h : IsPlain row) :
    (recoverRow row).entries = row.entries.map fun e => (e.1, Literal.recover e.2) := by
  refine (List.filterMap_congr (g := fun e => some (e.1, Literal.recover e.2))
    fun e he => ?_).trans (congrFun List.filterMap_eq_map' _)
  have hsome := (render_recover_of_isPlain h he).2
  dsimp only
  split
  · contradiction
  · rfl

/-- The insert of what a plain row stands for writes what is stored. -/
theorem renderInsert_recoverRow (table : Text) (h : IsPlain row) :
    renderInsert table ⟨recoverRow row, []⟩ = (Parts.ofStored table row).selection := by
  have hentries := entries_recoverRow h
  have hkeys : (recoverRow row).keys = row.keys := by
    rw [OrderedMap.keys, hentries, List.map_map]
    rfl
  have hvalues : (recoverRow row).values.map Literal.render =
      row.values.map Literal.renderStored := by
    rw [OrderedMap.values, hentries, OrderedMap.values, List.map_map, List.map_map, List.map_map]
    refine List.map_congr_left fun e he => ?_
    exact (render_recover_of_isPlain h he).1
  rw [renderInsert_eq, hkeys, hvalues, Parts.ofStored]

/-- Plain rows are all in the document. -/
theorem documentRows_of_isPlain {rows : List Row} (h : ∀ row ∈ rows, IsPlain row) :
    documentRows rows = rows.map recoverRow := by
  refine List.filter_eq_self.mpr fun r hr => ?_
  obtain ⟨row, hrow, rfl⟩ := List.mem_map.mp hr
  have hfilled := (h row hrow).filled
  simpa [OrderedMap.isEmpty, entries_recoverRow (h row hrow)] using hfilled

end Snapshot

/-! ## Exports of rows -/

namespace Options

/-- At most one half is left out. -/
theorem isStructureOnly_of_isDataOnly {o : Options} (h : o.isDataOnly = true) :
    o.isStructureOnly = false := by
  by_contra hboth
  exact o.not_both ⟨h, Bool.eq_true_of_not_eq_false hboth⟩

end Options

namespace Catalog

/-- What is taken depends on the table filter only. -/
theorem entries_congr {o o' : Options} (h : o.tableFilter? = o'.tableFilter?) (rows : List Row) :
    entries o rows = entries o' rows := by
  have hincludes : o.includesTable = o'.includesTable := by
    funext name
    rw [Options.includesTable, Options.includesTable, h]
  have htaken : taken? o = taken? o' := by
    funext row
    simp only [taken?, hincludes]
  induction rows with
  | nil => rfl
  | cons row rows ih => rw [entries, entries, htaken, ih]

end Catalog

namespace Walk

open RowStatement

variable {o : Options} {catalog : List Row} {es : List Catalog.Entry}
  {ds : List Catalog.Definition} {stored : Text → List Row}

/-- The parts of the statements for all rows that are read. -/
def parts (es : List Catalog.Entry) (stored : Text → List Row) : List Parts :=
  (Catalog.tables es).flatMap fun table => (stored table).map (Parts.ofStored table)

theorem read_of_isDataOnly (h : o.isDataOnly = true) : read o es ds stored =
    ⟨es, [], (Catalog.tables es).map fun table => (table, stored table)⟩ := by
  simp [read, h, Options.isStructureOnly_of_isDataOnly h]

theorem statements_toScript (h : o.isDataOnly = true) :
    (read o es ds stored).toScript.statements = (parts es stored).map Parts.values := by
  rw [read_of_isDataOnly h, parts, List.map_flatMap]
  show List.flatMap _ (List.map _ _) = _
  rw [List.flatMap_map]
  refine congrArg (List.flatMap · (Catalog.tables es)) (funext fun table => ?_)
  show (stored table).map (renderStored table) = _
  rw [List.map_map]
  exact List.map_congr_left fun row _ => renderStored_eq table row

theorem statements_compile (h : o.isDataOnly = true) (hes : Catalog.entries o catalog = .ok es)
    (hdistinct : (Catalog.tableNames catalog).Nodup)
    (hplain : ∀ table ∈ Catalog.tables es, ∀ row ∈ stored table, IsPlain row) {scope : Scope}
    (hsize : scope.batchInsertSize = 1) (hchanges : scope.includeChanges = true) :
    (((read o es ds stored).toDocument (!o.isDataOnly) (!o.isStructureOnly)).document.compile
      scope).statements = (parts es stored).map Parts.selection := by
  have hnames : ((read o es ds stored).contents.map Prod.fst) = Catalog.tables es :=
    names_read (Options.isStructureOnly_of_isDataOnly h)
  have hdocument :
      ((read o es ds stored).toDocument (!o.isDataOnly) (!o.isStructureOnly)).document =
        ⟨none, some ⟨Snapshot.inserts (read o es ds stored).contents, .empty, .empty⟩⟩ := by
    simp [Snapshot.toDocument, h, Options.isStructureOnly_of_isDataOnly h]
  rw [hdocument, Document.statements_compile_changes hchanges, hsize,
    Snapshot.compileChanges_inserts, read_of_isDataOnly h, List.flatMap_map, parts,
    List.map_flatMap]
  · refine List.flatMap_congr fun table htable => ?_
    have hrows := hplain table htable
    rw [Snapshot.documentRows_of_isPlain hrows, List.map_map, List.map_map]
    exact List.map_congr_left fun row hrow =>
      Snapshot.renderInsert_recoverRow table (hrows row hrow)
  · rw [hnames]
    exact hdistinct.sublist (Catalog.sublist_tableNames hes)
  · rw [hnames]
    exact fun table htable => Catalog.unreserved_of_mem_tables hes htable

end Walk

namespace Operation

open RowStatement

variable {σ σ' ρ ρ' : Type}

/-- **Main.** A database of which only the rows are exported, from all tables or from those of a
filter, has the same rows in the script and in the statements that the document is compiled to row
by row.  The statements correspond one to one in the same order, and have the same parts. -/
theorem exports_are_alike {call : Call σ} {call' : Call σ'} {b : Backend σ} {b' : Backend σ'}
    {Holds : σ → Prop} {Holds' : σ' → Prop} {catalog : List Row} {stored : Text → List Row}
    {es : List Catalog.Entry}
    (hb : call.registry.adapt call.handle = .ok b)
    (hb' : call'.registry.adapt call'.handle = .ok b')
    (hcallbacks : TakesResults call.callbacks) (hcallbacks' : TakesResults call'.callbacks)
    (hserves : Walk.Serves b Holds catalog stored) (hserves' : Walk.Serves b' Holds' catalog stored)
    (hdata : call.options.isDataOnly = true) (hdata' : call'.options.isDataOnly = true)
    (hfilter : call.options.tableFilter? = call'.options.tableFilter?)
    (hes : Catalog.entries call.options catalog = .ok es)
    (hdistinct : (Catalog.tableNames catalog).Nodup)
    (hplain : ∀ table ∈ Catalog.tables es, ∀ row ∈ stored table, IsPlain row)
    {compiling : Options} (hsize : compiling.batchInsertSize = 1)
    (hchanges : compiling.isStructureOnly = false)
    (s : σ × ρ) (hs : Holds s.1) (s' : σ' × ρ') (hs' : Holds' s'.1) :
    ∃ e e' c, (exportScript call s).outcome = .ok (some e) ∧
      (exportDocument call' s').outcome = .ok (some e') ∧
      (compiled (.ofOptions compiling) (.document e'.document) s').outcome = .ok c ∧
      e.statements = (Walk.parts es stored).map Parts.values ∧
      c.statements = (Walk.parts es stored).map Parts.selection := by
  have hyields : Catalog.Yields call.options catalog es [] :=
    ⟨hes, fun h => absurd (h.symm.trans hdata) Bool.false_ne_true⟩
  have hyields' : Catalog.Yields call'.options catalog es [] :=
    ⟨Catalog.entries_congr hfilter catalog ▸ hes,
      fun h => absurd (h.symm.trans hdata') Bool.false_ne_true⟩
  obtain ⟨_, s₁, events, hscript, rfl, -⟩ := triple_exportScript hb hcallbacks hserves hyields s hs
  obtain ⟨_, s₁', events', hdocument, rfl, -⟩ :=
    triple_exportDocument hb' hcallbacks' hserves' hyields' s' hs'
  refine ⟨_, _, _, congrArg Record.outcome hscript, congrArg Record.outcome hdocument,
    congrArg Record.outcome (compiled_apply rfl (.ofOptions compiling) s'), ?_, ?_⟩
  · exact Walk.statements_toScript hdata
  · exact Walk.statements_compile hdata' hyields'.taken hdistinct hplain hsize
      (by simp [Scope.ofOptions, hchanges])

/-! ### Words among the rows -/

/-- A connection that answers so and knows no transactions. -/
def rehearsed (answers : List Scripted.Answer) : Scripted.Script :=
  ⟨.recording, [], [], answers, false⟩

/-- It can be read, whatever it answers. -/
theorem serves_rehearsed (answers : List Scripted.Answer) : Walk.Serves Scripted.recording
    (· = rehearsed answers) ((rehearsed answers).result Catalog.query)
    fun table => (rehearsed answers).result (Catalog.tableQuery table) where
  begins := by
    rintro c rfl -
    exact ⟨rehearsed answers, rfl, rfl⟩
  commits := by
    rintro c rfl -
    exact ⟨rehearsed answers, rfl, rfl⟩
  listed := by
    rintro c rfl
    exact ⟨rehearsed answers, rfl, rfl⟩
  table := by
    rintro table - c rfl
    exact ⟨rehearsed answers, rfl, rfl⟩

/-- Two tables, the first of which has a word for a truth value and a null. -/
def wordAnswers : List Scripted.Answer :=
  [⟨"sqlite_master".toList, some (["type", "name", "tbl_name", "sql"].map String.toList),
    [["table", "t", "t", "CREATE TABLE t (a, b, c)"].map (Value.text ·.toList),
      ["table", "u", "u", "CREATE TABLE u (a)"].map (Value.text ·.toList)]⟩,
    ⟨"FROM t".toList, some (["a", "b", "c"].map String.toList),
      [[.text "true".toList, .text "it's".toList, .null],
        [.bool false, .text "False".toList, .text []]]⟩]

/-- Exports of the rows of the first table. -/
def wordCall : Call Scripted.Script where
  registry := .standard
  handle := Scripted.handle .recording
  options := ⟨.bool true, .null, some [.text "t".toList], 1, Options.one_le_single,
    by simp [Value.isTruthy]⟩
  callbacks := ⟨none, none, none⟩

/-- The parts of the statements for its rows. -/
def wordParts : List Parts :=
  [⟨"t".toList, ["a", "b", "c"].map String.toList, ["'true'", "'it''s'", "NULL"].map String.toList⟩,
    ⟨"t".toList, ["a", "b", "c"].map String.toList, ["'false'", "'False'", "''"].map String.toList⟩]

theorem word_exports_are_alike : ∃ e e' c,
    (exportScript wordCall (rehearsed wordAnswers, ())).outcome = .ok (some e) ∧
      (exportDocument wordCall (rehearsed wordAnswers, ())).outcome = .ok (some e') ∧
      (compiled (.ofOptions wordCall.options) (.document e'.document)
        (rehearsed wordAnswers, ())).outcome = .ok c ∧
      e.statements = wordParts.map Parts.values ∧
      c.statements = wordParts.map Parts.selection := by
  have hb : wordCall.registry.adapt wordCall.handle = .ok Scripted.recording := rfl
  have hes : Catalog.entries wordCall.options ((rehearsed wordAnswers).result Catalog.query) =
      .ok [⟨.text "table".toList, "t".toList, "t".toList,
        .text "CREATE TABLE t (a, b, c)".toList⟩] := rfl
  have hdistinct :
      (Catalog.tableNames ((rehearsed wordAnswers).result Catalog.query)).Nodup := by
    decide +kernel
  have hplain : ∀ row ∈ (rehearsed wordAnswers).result (Catalog.tableQuery "t".toList),
      IsPlain row :=
    List.forall_mem_cons.mpr ⟨⟨by decide, by decide, by decide, by decide⟩,
      List.forall_mem_singleton.mpr ⟨by decide, by decide, by decide, by decide⟩⟩
  have hparts : Walk.parts [⟨.text "table".toList, "t".toList, "t".toList,
      .text "CREATE TABLE t (a, b, c)".toList⟩]
        (fun table => (rehearsed wordAnswers).result (Catalog.tableQuery table)) = wordParts := rfl
  have hserves := serves_rehearsed wordAnswers
  have hsize : wordCall.options.batchInsertSize = 1 := rfl
  obtain ⟨e, e', c, hscript, hdocument, hcompiled, hvalues, hselections⟩ :=
    exports_are_alike hb hb (fun _ h => nomatch h) (fun _ h => nomatch h) hserves hserves rfl rfl
      rfl hes hdistinct (List.forall_mem_singleton.mpr hplain) hsize rfl
      (rehearsed wordAnswers, ()) rfl (rehearsed wordAnswers, ()) rfl
  rw [hparts] at hvalues hselections
  exact ⟨e, e', c, hscript, hdocument, hcompiled, hvalues, hselections⟩

end Operation
end SqlInterchange
