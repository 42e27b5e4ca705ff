import SqlInterchange.Backend.Scripted
import SqlInterchange.Proofs.Document.RoundTrip
import SqlInterchange.Proofs.Export.Served

/-! # Exported documents are valid

The document of an export is made of what the database answers and is not checked.  It would pass
the check nevertheless: its rows hold scalars only, because byte strings are taken as text and
absent values are left out, and each row has a column, because the others are left out too.  So it
comes back from its JSON as it is.

Its section of rows has each table once, in the order of the catalog, and has it even if no row of
the table is left.
-/
namespace SqlInterchange

/-! ## Stored values and what they stand for -/

/-- Whether a value is a scalar that comes back from JSON. -/
def Value.IsReadBack (v : Value) : Prop :=
  v.isScalar ∧ ∀ n, v = .int n → (Decimal.digits n.natAbs).length ≤ Json.maxDigits

/-- Whether a value may be what a cell has stored. -/
def Value.IsStored (v : Value) : Prop := v.IsReadBack ∨ ∃ bs, v = .bytes bs

namespace Literal

theorem ofStoredText_isReadBack (t : Text) (h : ofStoredText t ≠ .absent) :
    (ofStoredText t).IsReadBack := by
  unfold ofStoredText at h ⊢
  split
  · exact ⟨rfl, fun n h => nomatch h⟩
  split
  · exact ⟨rfl, fun n h => nomatch h⟩
  split
  · exact ⟨rfl, fun n h => nomatch h⟩
  split
  · simp_all
  · exact ⟨rfl, fun n h => nomatch h⟩

/-- What a stored value stands for is absent or comes back. -/
theorem recover_isReadBack {v : Value} (hv : v.IsStored) (h : recover v ≠ .absent) :
    (recover v).IsReadBack := by
  rcases hv with hv | ⟨bs, rfl⟩
  · cases v with
    | text t => exact ofStoredText_isReadBack t h
    | null => exact hv
    | bool b => exact hv
    | int n => exact hv
    | float x => exact hv
    | bytes bs => cases hv.1
    | absent => cases hv.1
    | list items => cases hv.1
    | object fields => cases hv.1
  · exact ofStoredText_isReadBack (Utf8.decodeLenient bs) h

end Literal

/-! ## Documents that only insert -/

namespace Changes

variable {inserts : OrderedMap (List Row)}

theorem wellFormed_of_inserts
    (h : ∀ e ∈ inserts.entries, ∀ row ∈ e.2, Document.IsFilled row) :
    (⟨inserts, .empty, .empty⟩ : Changes).WellFormed where
  inserts := h
  assignments := by simp [OrderedMap.empty]
  conditions := by simp [OrderedMap.empty]
  deletes := by simp [OrderedMap.empty]

/-- The values of such a document are those of the rows that it inserts. -/
theorem exists_of_mem_cells {v : Value}
    (h : v ∈ (⟨inserts, .empty, .empty⟩ : Changes).cells) :
    ∃ e ∈ inserts.entries, ∃ row ∈ e.2, ∃ f ∈ row.entries, f.2 = v := by
  simp only [cells, OrderedMap.values, OrderedMap.empty, List.map_nil, List.flatten_nil,
    List.flatMap_nil, List.append_nil, List.mem_flatMap, List.mem_flatten] at h
  obtain ⟨row, ⟨rows, hrows, hrow⟩, hvalue⟩ := h
  obtain ⟨e, he, rfl⟩ := List.mem_map.mp hrows
  exact ⟨e, he, row, hrow, List.mem_map.mp hvalue⟩

end Changes

/-! ## What is read and what becomes of it -/

namespace Snapshot

theorem mem_recoverRow {row : Row} {e : Text × Value} : e ∈ (recoverRow row).entries ↔
    ∃ v, (e.1, v) ∈ row.entries ∧ Literal.recover v = e.2 ∧ e.2 ≠ .absent := by
  obtain ⟨column, value⟩ := e
  simp only [recoverRow, OrderedMap.filterMap, List.mem_filterMap, Option.map_eq_some_iff]
  constructor
  · rintro ⟨⟨column', v⟩, hmem, w, hw, he⟩
    obtain ⟨rfl, rfl⟩ := Prod.mk.inj he
    refine ⟨v, hmem, ?_⟩
    dsimp only at hw ⊢
    split at hw
    · cases hw
    · next hne =>
      obtain rfl := Option.some.inj hw
      exact ⟨rfl, hne⟩
  · rintro ⟨v, hmem, rfl, hne⟩
    refine ⟨(column, v), hmem, Literal.recover v, ?_, rfl⟩
    dsimp only at hne ⊢
    split
    · contradiction
    · rfl

variable {rows : List Row} {row : Row}

/-- The rows of a document have columns, and values that come back. -/
theorem values_of_mem_documentRows (h : ∀ r ∈ rows, ∀ v ∈ r.values, v.IsStored)
    (hrow : row ∈ documentRows rows) :
    row.entries ≠ [] ∧ ∀ e ∈ row.entries, e.2.IsReadBack := by
  obtain ⟨hmem, hfilled⟩ := List.mem_filter.mp hrow
  obtain ⟨r, hr, rfl⟩ := List.mem_map.mp hmem
  refine ⟨by simpa [OrderedMap.isEmpty] using hfilled, fun e he => ?_⟩
  obtain ⟨v, hv, hrecover, hne⟩ := mem_recoverRow.mp he
  have hstored : v.IsStored := h r hr v (List.mem_map_of_mem hv)
  rw [← hrecover] at hne ⊢
  exact Literal.recover_isReadBack hstored hne

variable {contents : List (Text × List Row)}

theorem mem_inserts {e : Text × List Row} (he : e ∈ (inserts contents).entries) :
    ∃ rows, (e.1, rows) ∈ contents ∧ e.2 = documentRows rows := by
  obtain ⟨⟨table, rows⟩, hmem, rfl⟩ := List.mem_map.mp (OrderedMap.mem_of_mem_ofList he)
  exact ⟨rows, hmem, rfl⟩

theorem entries_inserts (h : (contents.map Prod.fst).Nodup) :
    (inserts contents).entries = contents.map fun (table, rows) => (table, documentRows rows) := by
  refine OrderedMap.entries_ofList ?_
  rwa [List.map_map]

theorem keys_inserts (h : (contents.map Prod.fst).Nodup) :
    (inserts contents).keys = contents.map Prod.fst := by
  rw [OrderedMap.keys, entries_inserts h, List.map_map]
  rfl

/-- The document of what a database has stored comes back from JSON. -/
theorem ofText_toDocument {x : Snapshot}
    (h : ∀ e ∈ x.contents, ∀ r ∈ e.2, ∀ v ∈ r.values, v.IsStored)
    (includeSchema includeChanges : Bool) (indent : Json.Indent) :
    let d := (x.toDocument includeSchema includeChanges).document
    Document.ofText (d.toJson indent) = .ok d := by
  intro d
  have hinserts : ∀ e ∈ (inserts x.contents).entries, ∀ row ∈ e.2,
      row.entries ≠ [] ∧ ∀ f ∈ row.entries, f.2.IsReadBack := by
    intro e he row hrow
    obtain ⟨rows, hmem, heq⟩ := mem_inserts he
    exact values_of_mem_documentRows (h _ hmem) (heq ▸ hrow)
  cases includeChanges with
  | false =>
    have hnone : ∀ c ∈ d.changes?, c.WellFormed := fun c hc => nomatch hc
    exact Document.ofText_toJson hnone (fun n hn => nomatch hn) indent
  | true =>
    refine Document.ofText_toJson (fun c hc => ?_) (fun n hn => ?_) indent
    · obtain rfl := Option.some.inj hc
      exact Changes.wellFormed_of_inserts fun e he row hrow =>
        ⟨(hinserts e he row hrow).1, fun f hf => ((hinserts e he row hrow).2 f hf).1⟩
    · obtain ⟨e, he, row, hrow, f, hf, hfn⟩ := Changes.exists_of_mem_cells hn
      exact ((hinserts e he row hrow).2 f hf).2 n hfn

end Snapshot

/-! ## Exports -/

namespace Operation

variable {σ ρ : Type}

/-- **Main: exported documents are valid.**  From a database whose catalog has text in its columns
and lists each table once, and whose cells hold scalars and byte strings, every export has a
document.  The document comes back from its JSON, given as text or as bytes and in every layout.
If the rows are asked for, it has rows for just the tables that are taken, in the order of the
catalog. -/
theorem exported_document_is_valid {call : Call σ} {b : Backend σ} {Holds : σ → Prop}
    {catalog : List Row} {stored : Text → List Row}
    (hb : call.registry.adapt call.handle = .ok b) (hcallbacks : TakesResults call.callbacks)
    (hserves : Walk.Serves b Holds catalog stored)
    (htextual : ∀ row ∈ catalog, Catalog.IsTextual row)
    (hdistinct : (Catalog.tableNames catalog).Nodup)
    (hstored : ∀ table ∈ Catalog.tableNames catalog, ∀ row ∈ stored table,
      ∀ v ∈ row.values, v.IsStored)
    (s : σ × ρ) (hs : Holds s.1) :
    ∃ es e, Catalog.entries call.options catalog = .ok es ∧
      (exportDocument call s).outcome = .ok (some e) ∧
      (∀ indent, Document.parse (.value (.text (e.document.toJson indent))) = .ok e.document ∧
        Document.parse (.bytes (Utf8.encode (e.document.toJson indent))) = .ok e.document) ∧
      e.document.changes?.map (fun c => c.inserts.keys) =
        if call.options.isStructureOnly then none else some (Catalog.tables es) := by
  obtain ⟨es, ds, hcatalog⟩ := Catalog.exists_yields call.options htextual
  obtain ⟨_, s', events, hexport, rfl, -⟩ :=
    triple_exportDocument hb hcallbacks hserves hcatalog s hs
  have hback (indent : Json.Indent) := Snapshot.ofText_toDocument
    (x := Walk.read call.options es ds stored) (fun e he row hrow => by
      obtain ⟨htable, hrows⟩ := Walk.mem_contents_read he
      exact hstored e.1 (hcatalog.listed.subset htable) row (hrows ▸ hrow))
    (!call.options.isDataOnly) (!call.options.isStructureOnly) indent
  refine ⟨es, _, hcatalog.taken, congrArg Record.outcome hexport,
    fun indent => ⟨hback indent, ?_⟩, ?_⟩
  · show Document.ofBytes _ = _
    rw [Document.ofBytes, Utf8.decode_encode]
    exact hback indent
  · cases hstructure : call.options.isStructureOnly with
    | true => rfl
    | false =>
      have hnames : (Walk.read call.options es ds stored).contents.map Prod.fst =
          Catalog.tables es := Walk.names_read hstructure
      have hkeys : (Snapshot.inserts (Walk.read call.options es ds stored).contents).keys =
          Catalog.tables es := by
        rw [Snapshot.keys_inserts (hnames ▸ hdistinct.sublist hcatalog.listed), hnames]
      exact congrArg some hkeys

/-! ### Rows that are left out -/

/-- What stands in the catalog and in a table of four columns; the other table has no rows, and
the index no statement. -/
def sparseAnswers : List Scripted.Answer :=
  [⟨"sqlite_master".toList, some (["type", "name", "tbl_name", "sql"].map String.toList),
    [["table", "t", "t", "CREATE TABLE t (a, b, c, d)"].map (Value.text ·.toList),
      [.text "index".toList, .text "i".toList, .text "t".toList, .null],
      ["table", "u", "u", "CREATE TABLE u AS SELECT 1"].map (Value.text ·.toList)]⟩,
    ⟨"FROM t".toList, some (["a", "b", "c", "d"].map String.toList),
      [[.text "undefined".toList, .bytes [0x75, 0xff], .text "true".toList, .int (-7)],
        List.replicate 4 (.text "undefined".toList)]⟩]

/-- A connection of the engine that answers so, with a transaction open or not. -/
def sparse (isOpen : Bool) : Scripted.Script := ⟨.engine, [], [], sparseAnswers, isOpen⟩

/-- Exports of that connection. -/
def sparseCall : Call Scripted.Script where
  registry := .standard
  handle := Scripted.handle .engine
  options := .standard
  callbacks := ⟨none, none, none⟩

/-- The answers to the catalog query and to the queries of tables. -/
def sparseAnswer (statement : Text) : List Row := (sparse false).result statement

theorem tableNames_sparse :
    Catalog.tableNames (sparseAnswer Catalog.query) = ["t".toList, "u".toList] := by
  decide +kernel

theorem serves_sparse : Walk.Serves (.engine Scripted.connection)
    (fun s => ∃ isOpen, s = sparse isOpen) (sparseAnswer Catalog.query)
    fun table => sparseAnswer (Catalog.tableQuery table) where
  begins := by
    rintro c ⟨isOpen, rfl⟩ hfree
    obtain rfl : isOpen = false := hfree rfl
    exact ⟨sparse true, rfl, true, rfl⟩
  commits := by
    rintro c ⟨isOpen, rfl⟩ hopen
    obtain rfl : isOpen = true := hopen rfl
    exact ⟨sparse false, rfl, false, rfl⟩
  listed := by
    rintro c ⟨isOpen, rfl⟩
    exact ⟨sparse isOpen, rfl, isOpen, rfl⟩
  table := by
    rintro table htable c ⟨isOpen, rfl⟩
    rw [tableNames_sparse] at htable
    simp only [List.mem_cons, List.not_mem_nil, or_false] at htable
    rcases htable with rfl | rfl
    · exact ⟨sparse isOpen, rfl, isOpen, rfl⟩
    · exact ⟨sparse isOpen, rfl, isOpen, rfl⟩

theorem isTextual_sparse : ∀ row ∈ sparseAnswer Catalog.query, Catalog.IsTextual row :=
  List.forall_mem_cons.mpr ⟨⟨⟨_, rfl⟩, ⟨_, rfl⟩, ⟨_, rfl⟩, .inr ⟨_, rfl⟩⟩,
    List.forall_mem_cons.mpr ⟨⟨⟨_, rfl⟩, ⟨_, rfl⟩, ⟨_, rfl⟩, .inl rfl⟩,
      List.forall_mem_singleton.mpr ⟨⟨_, rfl⟩, ⟨_, rfl⟩, ⟨_, rfl⟩, .inr ⟨_, rfl⟩⟩⟩⟩

theorem isStored_sparse : ∀ table ∈ Catalog.tableNames (sparseAnswer Catalog.query),
    ∀ row ∈ sparseAnswer (Catalog.tableQuery table), ∀ v ∈ row.values, v.IsStored := by
  have htext (t : Text) : (Value.text t).IsStored := .inl ⟨rfl, fun n h => nomatch h⟩
  have hint : (Value.int (-7)).IsStored := by
    refine .inl ⟨rfl, fun n hn => ?_⟩
    obtain rfl := Value.int.inj hn
    rw [Decimal.digits_of_lt (by decide)]
    decide
  rw [tableNames_sparse]
  refine List.forall_mem_cons.mpr ⟨?_, List.forall_mem_singleton.mpr fun row hrow => nomatch hrow⟩
  refine List.forall_mem_cons.mpr ⟨?_, List.forall_mem_singleton.mpr ?_⟩
  · refine List.forall_mem_cons.mpr ⟨htext _, List.forall_mem_cons.mpr ⟨.inr ⟨_, rfl⟩, ?_⟩⟩
    exact List.forall_mem_cons.mpr ⟨htext _, List.forall_mem_singleton.mpr hint⟩
  · intro v hv
    rw [List.eq_of_mem_replicate (n := 4) hv]
    exact htext _

/-- The second row of the first table is left out, and the second table has none; both are there. -/
theorem sparse_export_is_valid : ∃ e,
    (exportDocument sparseCall (sparse false, ())).outcome = .ok (some e) ∧
      Document.parse (.value (.text (e.document.toJson (some 2)))) = .ok e.document ∧
      e.document.changes?.map (fun c => c.inserts.keys) = some ["t".toList, "u".toList] := by
  have hdistinct : (Catalog.tableNames (sparseAnswer Catalog.query)).Nodup := by
    rw [tableNames_sparse]
    decide
  have hb : sparseCall.registry.adapt sparseCall.handle = .ok (.engine Scripted.connection) := rfl
  obtain ⟨es, e, hes, hexport, hback, hkeys⟩ := exported_document_is_valid hb
    (fun _ h => nomatch h) serves_sparse isTextual_sparse hdistinct isStored_sparse
    (sparse false, ()) ⟨false, rfl⟩
  have htables : (Catalog.entries .standard (sparseAnswer Catalog.query)).toOption.map
      Catalog.tables = some ["t".toList, "u".toList] := by decide +kernel
  rw [show Catalog.entries .standard (sparseAnswer Catalog.query) = .ok es from hes] at htables
  exact ⟨e, hexport, (hback (some 2)).1, hkeys.trans htables⟩

end Operation
end SqlInterchange
