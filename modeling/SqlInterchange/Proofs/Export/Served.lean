import Mathlib.Data.List.Forall2
import SqlInterchange.Proofs.Except
import SqlInterchange.Proofs.Export.Reading
import SqlInterchange.Proofs.Triple

/-! # Databases that can be read

A database can be read if its catalog and the tables that the catalog lists answer what they are
asked.  It need not answer the same for ever, only as long as nothing but reading happens: `Holds`
is what must be true of the connection for these answers, and reading keeps it.

From such a database an export reads the entries of its catalog, their definitions and the rows of
its tables, and nothing goes wrong (`triple_snapshot`).
-/
namespace SqlInterchange

/-! ## What a catalog says -/

namespace Catalog

/-- Whether the columns of a row of the catalog are text; its statement may be null. -/
structure IsTextual (row : Row) : Prop where
  type : ∃ t, row.get? "type".toList = some (.text t)
  name : ∃ t, row.get? "name".toList = some (.text t)
  table : ∃ t, row.get? "tbl_name".toList = some (.text t)
  definition : row.get? "sql".toList = some .null ∨ ∃ t, row.get? "sql".toList = some (.text t)

/-- The text that a row has in a column. -/
def said? (row : Row) (column : String) : Option Text := (row.get? column.toList).bind Value.text?

/-- The table that a row of the catalog is for, if it is for a table. -/
def tableName? (row : Row) : Option Text :=
  if said? row "type" = some "table".toList then said? row "name" else none

/-- The names of the tables that a catalog lists. -/
def tableNames (rows : List Row) : List Text := rows.filterMap tableName?

variable {o : Options} {row : Row} {rows : List Row}

/-- Whether an entry is what a row of the catalog says, and is to be taken. -/
structure Entry.IsOf (o : Options) (row : Row) (e : Entry) : Prop where
  type : row.get? "type".toList = some e.type
  name : row.get? "name".toList = some (.text e.name)
  table : row.get? "tbl_name".toList = some (.text e.table)
  definition : row.get? "sql".toList = some e.definition
  defined : e.definition ≠ .null
  unreserved : Identifier.isReserved e.name = false
  unreservedTable : Identifier.isReserved e.table = false
  included : o.includesTable e.table = true

theorem column_eq_ok {name : String} {v : Value} (h : column row name = .ok v) :
    row.get? name.toList = some v := by
  unfold column at h
  split at h
  · next hget => rw [hget, Except.ok.inj h]
  · cases h

theorem nameText_eq_ok {v : Value} {t : Text} (h : nameText v = .ok t) : v = .text t := by
  unfold nameText at h
  split at h
  · rw [Except.ok.inj h]
  · cases h

/-- An entry that is taken is what its row says. -/
theorem isOf_of_taken? {e : Entry} (h : taken? o row = .ok (some e)) : e.IsOf o row := by
  obtain ⟨definition, hdefinition, h⟩ := exists_of_bind_eq_ok h
  split at h
  · cases h
  · next hdefined =>
    obtain ⟨type, htype, h⟩ := exists_of_bind_eq_ok h
    obtain ⟨nameValue, hnameValue, h⟩ := exists_of_bind_eq_ok h
    obtain ⟨tableValue, htableValue, h⟩ := exists_of_bind_eq_ok h
    obtain ⟨name, hname, h⟩ := exists_of_bind_eq_ok h
    split at h
    · cases h
    · next hreserved =>
      obtain ⟨table, htable, h⟩ := exists_of_bind_eq_ok h
      split at h
      · cases h
      · next hout =>
        obtain rfl := Option.some.inj (Except.ok.inj h)
        obtain rfl := nameText_eq_ok hname
        obtain rfl := nameText_eq_ok htable
        rw [Bool.or_eq_true, not_or, Bool.not_eq_true, Bool.not_eq_true, Bool.not_eq_false'] at hout
        exact
          { type := column_eq_ok htype
            name := column_eq_ok hnameValue
            table := column_eq_ok htableValue
            definition := column_eq_ok hdefinition
            defined := hdefined
            unreserved := Bool.not_eq_true _ ▸ hreserved
            unreservedTable := hout.1
            included := hout.2 }

theorem Entry.IsOf.tableName? {e : Entry} (h : e.IsOf o row) :
    tableName? row = if e.isTable then some e.name else none := by
  simp only [Catalog.tableName?, said?, h.type, h.name, Option.bind_some, Value.text?,
    Entry.isTable, beq_iff_eq]

/-- The entries that are taken of a row and of the rows behind it. -/
theorem entries_cons_eq_ok {es : List Entry} (h : entries o (row :: rows) = .ok es) :
    ∃ first? rest, taken? o row = .ok first? ∧ entries o rows = .ok rest ∧
      es = first?.toList ++ rest := by
  obtain ⟨first?, hfirst, h⟩ := exists_of_bind_eq_ok h
  obtain ⟨rest, hrest, h⟩ := exists_of_bind_eq_ok h
  exact ⟨first?, rest, hfirst, hrest, (Except.ok.inj h).symm⟩

theorem exists_isOf_of_mem {es : List Entry} (h : entries o rows = .ok es) {e : Entry}
    (he : e ∈ es) : ∃ row ∈ rows, e.IsOf o row := by
  induction rows generalizing es with
  | nil =>
    cases h
    cases he
  | cons row rows ih =>
    obtain ⟨first?, rest, hfirst, hrest, rfl⟩ := entries_cons_eq_ok h
    rcases List.mem_append.mp he with he | he
    · obtain rfl := Option.mem_toList.mp he
      exact ⟨row, List.mem_cons_self .., isOf_of_taken? hfirst⟩
    · obtain ⟨row', hrow', hof⟩ := ih hrest he
      exact ⟨row', List.mem_cons_of_mem _ hrow', hof⟩

theorem unreserved_of_mem_tables {es : List Entry} (h : entries o rows = .ok es) {table : Text}
    (htable : table ∈ tables es) : Identifier.isReserved table = false := by
  obtain ⟨e, he, rfl⟩ := List.mem_map.mp htable
  obtain ⟨row, -, hof⟩ := exists_isOf_of_mem h (List.mem_filter.mp he).1
  exact hof.unreserved

/-- The tables that are taken are among those that the catalog lists, in order. -/
theorem sublist_tableNames {es : List Entry} (h : entries o rows = .ok es) :
    (tables es).Sublist (tableNames rows) := by
  induction rows generalizing es with
  | nil =>
    cases h
    exact .slnil
  | cons row rows ih =>
    obtain ⟨first?, rest, hfirst, hrest, rfl⟩ := entries_cons_eq_ok h
    have hrows : (tables rest).Sublist (tableNames (row :: rows)) :=
      (ih hrest).trans ((List.sublist_cons_self row rows).filterMap tableName?)
    cases first? with
    | none => exact hrows
    | some e =>
      have hname := (isOf_of_taken? hfirst).tableName?
      show (tables (e :: rest)).Sublist _
      by_cases he : e.isTable
      · rw [if_pos he] at hname
        rw [tableNames, List.filterMap_cons_some hname, tables, List.filter_cons_of_pos he]
        exact (ih hrest).cons_cons e.name
      · rw [tables, List.filter_cons_of_neg he]
        exact hrows

/-- Whether a catalog has these entries, and these are their definitions, which nobody asks for if
only the rows are taken. -/
structure Yields (o : Options) (rows : List Row) (es : List Entry) (ds : List Definition) :
    Prop where
  taken : entries o rows = .ok es
  defined : o.isDataOnly = false → List.Forall₂ (fun e d => Entry.definition? e = .ok d) es ds

theorem Yields.listed {es : List Entry} {ds : List Definition} (h : Yields o rows es ds) :
    (tables es).Sublist (tableNames rows) := sublist_tableNames h.taken

/-- A row without a statement is passed over. -/
theorem taken?_of_null (o : Options) (h : row.get? "sql".toList = some .null) :
    taken? o row = .ok none := by
  simp only [taken?, column, h]
  rfl

/-- What is taken of a row that has all columns and names in them. -/
theorem taken?_of_columns (o : Options) {type definition : Value} {name table : Text}
    (htype : row.get? "type".toList = some type)
    (hname : row.get? "name".toList = some (.text name))
    (htable : row.get? "tbl_name".toList = some (.text table))
    (hdefinition : row.get? "sql".toList = some definition) (hdefined : definition ≠ .null) :
    taken? o row = .ok (if Identifier.isReserved name || (Identifier.isReserved table ||
      !o.includesTable table) then none else some ⟨type, name, table, definition⟩) := by
  have htaken : taken? o row = if Identifier.isReserved name then .ok none
      else if Identifier.isReserved table || !o.includesTable table then .ok none
      else .ok (some ⟨type, name, table, definition⟩) := by
    simp only [taken?, column, htype, hname, htable, hdefinition, nameText]
    cases definition with
    | null => exact absurd rfl hdefined
    | _ => rfl
  rw [htaken]
  by_cases hreserved : Identifier.isReserved name
  · rw [if_pos hreserved, if_pos (by simp [hreserved])]
  · by_cases hout : (Identifier.isReserved table || !o.includesTable table) = true
    · rw [if_neg hreserved, if_pos hout, if_pos (by simp [hout])]
    · rw [if_neg hreserved, if_neg hout, if_neg (by simpa [hreserved] using hout)]

/-- A row whose columns are text is passed over or gives an entry with a statement. -/
theorem taken?_of_textual (o : Options) (h : IsTextual row) : taken? o row = .ok none ∨
    ∃ e d, taken? o row = .ok (some e) ∧ e.definition? = .ok d := by
  obtain ⟨⟨type, htype⟩, ⟨name, hname⟩, ⟨table, htable⟩, hsql | ⟨sql, hsql⟩⟩ := h
  · exact .inl (taken?_of_null o hsql)
  · rw [taken?_of_columns o htype hname htable hsql nofun]
    split
    · exact .inl rfl
    · exact .inr ⟨_, _, rfl, rfl⟩

/-- A catalog whose columns are text has entries with definitions. -/
theorem exists_yields (o : Options) (h : ∀ row ∈ rows, IsTextual row) :
    ∃ es ds, Yields o rows es ds := by
  suffices hall : ∃ es ds, entries o rows = .ok es ∧
      List.Forall₂ (fun e d => Entry.definition? e = .ok d) es ds by
    obtain ⟨es, ds, hes, hds⟩ := hall
    exact ⟨es, ds, hes, fun _ => hds⟩
  induction rows with
  | nil => exact ⟨[], [], rfl, .nil⟩
  | cons row rows ih =>
    obtain ⟨hrow, hrows⟩ := List.forall_mem_cons.mp h
    obtain ⟨es, ds, hes, hds⟩ := ih hrows
    rcases taken?_of_textual o hrow with hnone | ⟨e, d, hsome, hd⟩
    · refine ⟨es, ds, ?_, hds⟩
      rw [entries, hnone, hes]
      rfl
    · refine ⟨e :: es, d :: ds, ?_, .cons hd hds⟩
      rw [entries, hsome, hes]
      rfl

end Catalog

/-! ## Reading -/

open Activity (Triple)

namespace Walk

variable {σ ρ : Type}

/-- Whether a connection of which `Holds` is true can be read: it has this catalog, and what each
table that the catalog lists has stored. -/
structure Serves (b : Backend σ) (Holds : σ → Prop) (catalog : List Row)
    (stored : Text → List Row) : Prop where
  begins : b.Begins Holds
  commits : b.Commits Holds
  listed : ∀ c, Holds c → ∃ c', b.submit Catalog.query c = (.ok catalog, c') ∧ Holds c'
  table : ∀ table ∈ Catalog.tableNames catalog, ∀ c, Holds c →
    ∃ c', b.submit (Catalog.tableQuery table) c = (.ok (stored table), c') ∧ Holds c'

/-- A question that is answered. -/
theorem triple_ask {b : Backend σ} {Holds : σ → Prop} {statement : Text} {rows : List Row}
    (h : ∀ c, Holds c → ∃ c', b.submit statement c = (.ok rows, c') ∧ Holds c') :
    Triple (fun s : σ × ρ => Holds s.1) (ask b statement) fun a s => a = rows ∧ Holds s.1 := by
  rintro ⟨c, own⟩ hc
  obtain ⟨c', hsubmit, hc'⟩ := h c hc
  have hask := ask_apply b statement c own
  rw [hsubmit] at hask
  exact ⟨rows, (c', own), _, hask, rfl, hc'⟩

theorem triple_orFault {α : Type} {P : σ × ρ → Prop} {result : Except Fault α} {a : α}
    (h : result = .ok a) : Triple P (orFault result) fun a' s => a' = a ∧ P s := by
  rw [h]
  exact .pure fun _ hs => ⟨rfl, hs⟩

theorem triple_definitions {P : σ × ρ → Prop} (remarks : Remarks) {es : List Catalog.Entry}
    {ds : List Catalog.Definition}
    (h : List.Forall₂ (fun e d => Catalog.Entry.definition? e = .ok d) es ds) :
    Triple P (definitions remarks es) fun ds' s => ds' = ds ∧ P s := by
  induction h with
  | nil => exact .pure fun _ hs => ⟨rfl, hs⟩
  | @cons e d es ds hd _ ih =>
    refine (triple_orFault hd).bind fun d' => .lift ?_
    rintro rfl
    refine (Triple.logAll (remarks.onDefinition d')).bind fun _ => ih.bind fun ds' => .lift ?_
    rintro rfl
    exact .pure fun _ hs => ⟨rfl, hs⟩

variable {b : Backend σ} {Holds : σ → Prop} {catalog : List Row} {stored : Text → List Row}

theorem triple_contents (h : Serves b Holds catalog stored) (remarks : Remarks)
    {tables : List Text} (htables : ∀ table ∈ tables, table ∈ Catalog.tableNames catalog) :
    Triple (fun s : σ × ρ => Holds s.1) (contents b remarks tables) fun cs s =>
      cs = tables.map (fun table => (table, stored table)) ∧ Holds s.1 := by
  induction tables with
  | nil => exact .pure fun _ hs => ⟨rfl, hs⟩
  | cons table tables ih =>
    obtain ⟨htable, htables⟩ := List.forall_mem_cons.mp htables
    refine (triple_ask (h.table table htable)).bind fun rows => .lift ?_
    rintro rfl
    refine (Triple.logAll (remarks.onRows table _)).bind fun _ =>
      (ih htables).bind fun cs => .lift ?_
    rintro rfl
    exact .pure fun _ hs => ⟨rfl, hs⟩

/-- What is read from a database with these entries and definitions. -/
def read (o : Options) (es : List Catalog.Entry) (ds : List Catalog.Definition)
    (stored : Text → List Row) : Snapshot where
  entries := es
  definitions := if o.isDataOnly then [] else ds
  contents :=
    if o.isStructureOnly then []
    else (Catalog.tables es).map fun table => (table, stored table)

variable {o : Options} {es : List Catalog.Entry} {ds : List Catalog.Definition}

theorem mem_contents_read {e : Text × List Row} (h : e ∈ (read o es ds stored).contents) :
    e.1 ∈ Catalog.tables es ∧ e.2 = stored e.1 := by
  simp only [read] at h
  split at h
  · cases h
  · obtain ⟨table, htable, rfl⟩ := List.mem_map.mp h
    exact ⟨htable, rfl⟩

theorem names_read (h : o.isStructureOnly = false) :
    (read o es ds stored).contents.map Prod.fst = Catalog.tables es := by
  simp [read, h, Function.comp_def]

theorem sublist_names_read :
    ((read o es ds stored).contents.map Prod.fst).Sublist (Catalog.tables es) := by
  cases h : o.isStructureOnly with
  | true => simp [read, h]
  | false => rw [names_read h]

theorem triple_gather (h : Serves b Holds catalog stored) (remarks : Remarks)
    (hcatalog : Catalog.Yields o catalog es ds) :
    Triple (fun s : σ × ρ => Holds s.1) (gather b o remarks) fun x s =>
      x = read o es ds stored ∧ Holds s.1 := by
  have hentries : Triple (fun s : σ × ρ => Holds s.1) (Walk.catalog b o) fun es' s =>
      es' = es ∧ Holds s.1 := by
    refine (triple_ask h.listed).bind fun rows => .lift ?_
    rintro rfl
    exact triple_orFault hcatalog.taken
  have hdefinitions : Triple (fun s : σ × ρ => Holds s.1)
      (if o.isDataOnly then pure [] else definitions remarks es) fun ds' s =>
        ds' = (if o.isDataOnly then [] else ds) ∧ Holds s.1 := by
    split
    · exact .pure fun _ hs => ⟨rfl, hs⟩
    · next hdata => exact triple_definitions remarks (hcatalog.defined (by simpa using hdata))
  have hcontents : Triple (fun s : σ × ρ => Holds s.1)
      (if o.isStructureOnly then pure [] else contents b remarks (Catalog.tables es)) fun cs s =>
        cs = (read o es ds stored).contents ∧ Holds s.1 := by
    unfold read
    split
    · exact .pure fun _ hs => ⟨rfl, hs⟩
    · exact triple_contents h remarks hcatalog.listed.subset
  rw [gather_eq]
  refine hentries.bind fun es' => .lift ?_
  rintro rfl
  refine hdefinitions.bind fun ds' => .lift ?_
  rintro rfl
  refine hcontents.bind fun cs => .lift ?_
  rintro rfl
  exact .pure fun _ hs => ⟨rfl, hs⟩

/-- **Main.** A database that can be read is read. -/
theorem triple_snapshot (h : Serves b Holds catalog stored) (remarks : Remarks)
    (hcatalog : Catalog.Yields o catalog es ds) :
    Triple (fun s : σ × ρ => Holds s.1) (snapshot b o remarks) fun x s =>
      x = read o es ds stored ∧ Holds s.1 := by
  refine Backend.triple_unitOfWork (fun _ => h.begins)
    (triple_gather h remarks hcatalog) fun x _ c hc hopen => ?_
  obtain ⟨hx, hc⟩ := hc
  obtain ⟨c', hcontrol, hc'⟩ := h.commits c hc hopen
  exact ⟨c', hcontrol, hx, hc'⟩

end Walk

namespace Operation

variable {σ ρ : Type} {call : Call σ} {b : Backend σ} {Holds : σ → Prop} {catalog : List Row}
  {stored : Text → List Row} {es : List Catalog.Entry} {ds : List Catalog.Definition}

/-- The script of a database that can be read. -/
theorem triple_exportScript (hb : call.registry.adapt call.handle = .ok b)
    (hcallbacks : TakesResults call.callbacks) (h : Walk.Serves b Holds catalog stored)
    (hcatalog : Catalog.Yields call.options catalog es ds) :
    Triple (fun s : σ × ρ => Holds s.1) (exportScript call) fun e? s =>
      e? = some (Walk.read call.options es ds stored).toScript ∧ Holds s.1 := by
  have hscript : Triple (fun s : σ × ρ => Holds s.1) (Walk.script b call.options) fun e s =>
      e = (Walk.read call.options es ds stored).toScript ∧ Holds s.1 := by
    refine (Walk.triple_snapshot h .forScript hcatalog).bind fun x => .lift ?_
    rintro rfl
    refine (Triple.log _).bind fun _ => ?_
    exact .pure fun _ hs => ⟨rfl, hs⟩
  refine (triple_reported hcallbacks (triple_backend hb hscript)).weaken ?_
  rintro e? s ⟨e, rfl, rfl, hs⟩
  exact ⟨rfl, hs⟩

/-- The document of a database that can be read. -/
theorem triple_exportDocument (hb : call.registry.adapt call.handle = .ok b)
    (hcallbacks : TakesResults call.callbacks) (h : Walk.Serves b Holds catalog stored)
    (hcatalog : Catalog.Yields call.options catalog es ds) :
    Triple (fun s : σ × ρ => Holds s.1) (exportDocument call) fun e? s =>
      e? = some ((Walk.read call.options es ds stored).toDocument (!call.options.isDataOnly)
        (!call.options.isStructureOnly)) ∧ Holds s.1 := by
  have hdocument : Triple (fun s : σ × ρ => Holds s.1) (Walk.document b call.options) fun e s =>
      e = (Walk.read call.options es ds stored).toDocument (!call.options.isDataOnly)
        (!call.options.isStructureOnly) ∧ Holds s.1 := by
    refine (Walk.triple_snapshot h .forDocument hcatalog).bind fun x => .lift ?_
    rintro rfl
    refine (Triple.log _).bind fun _ => ?_
    exact .pure fun _ hs => ⟨rfl, hs⟩
  refine (triple_reported hcallbacks (triple_backend hb hdocument)).weaken ?_
  rintro e? s ⟨e, rfl, rfl, hs⟩
  exact ⟨rfl, hs⟩

end Operation
end SqlInterchange
