import SqlInterchange.Proofs.Statement.Definition

/-! # Reserved tables

Whether an entry is compiled depends on the name of its table alone.  An entry for a reserved table
leaves a line in the log; for the rest the document is compiled as if the entry were not there.

The statements for the other entries aim at their tables, and what a statement aims at is read off
its text: the words that it begins with are taken off, and the name behind them is read as it is
written.  Behind the name there is nothing, a blank or a parenthesis, so that it is read to its end.
A statement that makes a table has the clause of its entry there instead.  This is the author's own
text, and it may go on with the name, up to one that is reserved (`exists_reserved_target`), or
behind the name `IF` with the further words that keep an existing table.  An entry whose clause does
not do so has its table dropped and made, and this table is not reserved
(`reserved_entries_are_left_out`).
-/
namespace SqlInterchange

/-! ## Reserved names -/

theorem Text.occursIn_iff {part t : Text} : occursIn part t ↔ part <:+: t := by
  induction t with
  | nil => simp [occursIn, List.isEmpty_iff]
  | cons c t ih => rw [occursIn, Bool.or_eq_true, List.isPrefixOf_iff_prefix, ih, List.infix_cons_iff]

namespace Identifier

/-- Whether a name is not for users: it begins with `sqlite_`, in whatever letter case, or it has a
double low line in it. -/
def IsReservedName (name : Text) : Prop :=
  (∃ start, start <+: name ∧ start.map Char.toLower = "sqlite_".toList) ∨ "__".toList <:+: name

theorem isReserved_iff {name : Text} : isReserved name ↔ IsReservedName name := by
  have hstart : "sqlite_".toList <+: name.map Char.toLower ↔
      ∃ start, start <+: name ∧ start.map Char.toLower = "sqlite_".toList := by
    rw [List.prefix_map_iff]
    exact exists_congr fun start => and_congr_right fun _ => eq_comm
  rw [isReserved, Bool.or_eq_true, List.isPrefixOf_iff_prefix, hstart, Text.occursIn_iff,
    IsReservedName]

instance : DecidablePred IsReservedName := fun _ => decidable_of_iff _ isReserved_iff

end Identifier

namespace Document

open Identifier (IsReservedName)

variable {α : Type} {d : Document} {scope : Scope}

/-! ## Documents without reserved entries -/

/-- The entries for tables that are for users. -/
def forUsers (entries : OrderedMap α) : OrderedMap α :=
  entries.filterKeys fun table => !decide (IsReservedName table)

/-- The document without its entries for reserved tables. -/
def withoutReserved (d : Document) : Document where
  schema? := d.schema?.map fun s => { s with tables := forUsers s.tables }
  changes? := d.changes?.map fun c =>
    ⟨forUsers c.inserts, forUsers c.updates, forUsers c.deletes⟩

/-- The entries for reserved tables in a part of the document, by table. -/
def reservedIn (part : String) (entries : OrderedMap α) : List (Text × Text) :=
  (entries.keys.filter fun table => IsReservedName table).map fun table => (part.toList, table)

/-- The entries for reserved tables in the halves of the document that are compiled. -/
def removed (scope : Scope) (d : Document) : List (Text × Text) :=
  ((d.schemaIn scope).map fun s => reservedIn "structure.tables" s.tables).getD [] ++
    ((d.changesIn scope).map fun c =>
      reservedIn "data.inserts" c.inserts ++ reservedIn "data.updates" c.updates ++
        reservedIn "data.deletes" c.deletes).getD []

theorem unreserved_eq_forUsers (entries : OrderedMap α) : unreserved entries = forUsers entries := by
  refine congrArg (OrderedMap.filterKeys · entries) (funext fun table => ?_)
  rw [Bool.eq_iff_iff]
  simp [← Identifier.isReserved_iff]

theorem unreserved_forUsers (entries : OrderedMap α) :
    unreserved (forUsers entries) = unreserved entries := by
  rw [unreserved_eq_forUsers, unreserved_eq_forUsers]
  refine OrderedMap.ext ?_
  simp only [forUsers, OrderedMap.filterKeys, List.filter_filter, Bool.and_self]

theorem compileSchema_forUsers (s : Schema) :
    compileSchema { s with tables := forUsers s.tables } = compileSchema s := by
  simp only [compileSchema, unreserved_forUsers]

theorem compileChanges_forUsers (size : Int) (c : Changes) :
    compileChanges size ⟨forUsers c.inserts, forUsers c.updates, forUsers c.deletes⟩ =
      compileChanges size c := by
  simp only [compileChanges, sectionStatements, unreserved_forUsers]

/-- Entries for reserved tables make no difference to the statements. -/
theorem compile_withoutReserved (scope : Scope) (d : Document) :
    d.withoutReserved.compile scope = d.compile scope := by
  obtain ⟨schema?, changes?⟩ := d
  have hschema : ((withoutReserved ⟨schema?, changes?⟩).schemaIn scope).map compileSchema =
      (schemaIn scope ⟨schema?, changes?⟩).map compileSchema := by
    unfold schemaIn
    split
    · rw [withoutReserved, Option.map_map]
      exact congrArg (Option.map · schema?) (funext compileSchema_forUsers)
    · rfl
  have hchanges : ((withoutReserved ⟨schema?, changes?⟩).changesIn scope).map
        (compileChanges scope.batchInsertSize) =
      (changesIn scope ⟨schema?, changes?⟩).map (compileChanges scope.batchInsertSize) := by
    unfold changesIn
    split
    · rw [withoutReserved, Option.map_map]
      exact congrArg (Option.map · changes?) (funext (compileChanges_forUsers _))
    · rfl
  rw [compile, compile, hschema, hchanges]

theorem skipped_eq (part : String) (entries : OrderedMap α) : skipped part entries =
    (reservedIn part entries).map fun (part, table) => .reservedTableSkipped part table := by
  rw [skipped, reservedIn, List.map_map]
  refine congrArg (List.map _) (List.filter_congr fun table _ => ?_)
  rw [Bool.eq_iff_iff, decide_eq_true_iff]
  exact Identifier.isReserved_iff

/-- The log has a line for each removed entry, in the order of the document, and no other but the
last. -/
theorem compileLog_eq (scope : Scope) (d : Document) : d.compileLog scope =
    (d.removed scope).map (fun (part, table) => .reservedTableSkipped part table) ++
      [.documentCompiled (d.compile scope).main.length (d.compile scope).deferred.length
        scope.batchInsertSize] := by
  have hschema : ((d.schemaIn scope).map fun s => skipped "structure.tables" s.tables).getD [] =
      (((d.schemaIn scope).map fun s => reservedIn "structure.tables" s.tables).getD []).map
        fun (part, table) => .reservedTableSkipped part table := by
    cases d.schemaIn scope with
    | none => rfl
    | some s => exact skipped_eq _ s.tables
  have hchanges : ((d.changesIn scope).map fun c => skipped "data.inserts" c.inserts ++
        skipped "data.updates" c.updates ++ skipped "data.deletes" c.deletes).getD [] =
      (((d.changesIn scope).map fun c => reservedIn "data.inserts" c.inserts ++
        reservedIn "data.updates" c.updates ++ reservedIn "data.deletes" c.deletes).getD []).map
        fun (part, table) => .reservedTableSkipped part table := by
    cases d.changesIn scope with
    | none => rfl
    | some c => simp only [Option.map_some, Option.getD_some, skipped_eq, List.map_append]
  rw [removed, List.map_append, ← hschema, ← hchanges]
  rfl

/-! ## What a statement aims at -/

/-- The words that statements for entries begin with, where they make no table. -/
def phrases : List String :=
  ["DROP TABLE IF EXISTS ", "INSERT OR REPLACE INTO ", "UPDATE ", "DELETE FROM "]

/-- The table that a statement is about, without delimiters: the one that it defines, or else the one
whose name is behind its first words. -/
def target? (s : Text) : Option Text :=
  ((TableDefinition.parse? s).map Prod.fst).or
    (((phrases.findSome? fun phrase => s.dropPrefix? phrase.toList).bind TableDefinition.name?).map
      fun (written, _) => Identifier.unescape written)

/-- Whether a clause goes on with the written name in front of it, or with the words that this name
begins, up to another name. -/
def GoesOn (table clause : Text) : Prop :=
  (∃ c ∈ clause.head?, if Identifier.isBare table then TableDefinition.isNameChar c = true
    else c = Identifier.backtick) ∨
  ((TableDefinition.stripIfNotExists? (Identifier.escape table ++ clause)).bind
    TableDefinition.name?).isSome

theorem findSome?_phrases {phrase : String} (h : phrase ∈ phrases) (rest : Text) :
    phrases.findSome? (fun phrase' => (phrase.toList ++ rest).dropPrefix? phrase'.toList) =
      some rest := by
  simp only [phrases, List.mem_cons, List.not_mem_nil, or_false] at h
  rcases h with rfl | rfl | rfl | rfl <;> simp [phrases, List.dropPrefix?]

theorem parse?_phrase {phrase : String} (h : phrase ∈ phrases) (rest : Text) :
    TableDefinition.parse? (phrase.toList ++ rest) = none := by
  obtain ⟨c, hhead, hblank, hfold⟩ : ∃ c, (phrase.toList ++ rest).head? = some c ∧
      Text.isBlank c = false ∧ Text.foldsTo 'C' c = false := by
    simp only [phrases, List.mem_cons, List.not_mem_nil, or_false] at h
    rcases h with rfl | rfl | rfl | rfl <;> exact ⟨_, rfl, by decide, by decide⟩
  have hstart : ∀ d ∈ (phrase.toList ++ rest).head?, Text.isBlank d = false := by
    simpa [hhead] using hblank
  rw [TableDefinition.parse?_eq, Text.trimStart_eq_self hstart,
    TableDefinition.stripWords?_of_head rfl hhead hfold]
  rfl

/-- The name is read to its end where nothing, a blank or a parenthesis follows. -/
theorem target?_append {phrase : String} (h : phrase ∈ phrases) (table : Text) {rest : Text}
    (hrest : ∀ c ∈ rest.head?, TableDefinition.isNameChar c = false) :
    target? (phrase.toList ++ (Identifier.escape table ++ rest)) = some table := by
  have hname : TableDefinition.name? (Identifier.escape table ++ rest) =
      some (Identifier.escape table, rest) := TableDefinition.name?_written .escaped hrest
  rw [target?, parse?_phrase h, findSome?_phrases h, Option.bind_some, hname]
  exact congrArg some (Identifier.unescape_escape table)

theorem head?_cons {c : Char} (h : TableDefinition.isNameChar c = false) (t : Text) :
    ∀ d ∈ (c :: t).head?, TableDefinition.isNameChar d = false := by
  simpa using h

theorem target?_renderDrop (table : Text) :
    target? (TableDefinition.renderDrop table) = some table := by
  have htarget := @target?_append "DROP TABLE IF EXISTS " (by decide) table [] (by simp)
  rwa [List.append_nil] at htarget

/-- Where a table is made the clause follows. -/
theorem target?_render {table clause : Text} (h : ¬ GoesOn table clause) :
    target? (TableDefinition.render table clause) = some table := by
  obtain ⟨hchar, hwords⟩ := not_or.mp h
  have hname : TableDefinition.name? (Identifier.escape table ++ clause) =
      some (Identifier.escape table, clause) := by
    refine TableDefinition.name?_escaped fun c hc => ?_
    split
    · next hbare => exact eq_false_of_ne_true fun hname => hchar ⟨c, hc, by rwa [if_pos hbare]⟩
    · next hbare => exact fun hquote => hchar ⟨c, hc, by rwa [if_neg hbare]⟩
  have hread : TableDefinition.target? (Identifier.escape table ++ clause) =
      some (Identifier.escape table, clause) := by
    rw [TableDefinition.target?, Option.not_isSome_iff_eq_none.mp hwords, Option.none_or, hname]
  have hparse : TableDefinition.parse? (TableDefinition.render table clause) =
      some (table, Text.trim clause) := by
    rw [TableDefinition.parse?_eq, TableDefinition.stripWords?_render, Option.bind_some, hread]
    exact congrArg (fun name => some (name, Text.trim clause)) (Identifier.unescape_escape table)
  rw [target?, hparse]
  rfl

/-- The other statements have a parenthesis or a blank there. -/
theorem target?_renderInsert (table : Text) (b : RowStatement.Batch) :
    target? (RowStatement.renderInsert table b) = some table := by
  unfold RowStatement.renderInsert
  simp only [List.append_assoc]
  exact target?_append (by decide) table (head?_cons (by decide) _)

theorem target?_renderUpdate (table : Text) (assignments matching : Row) :
    target? (RowStatement.renderUpdate table assignments matching) = some table := by
  unfold RowStatement.renderUpdate
  simp only [List.append_assoc]
  exact target?_append (by decide) table (head?_cons (by decide) _)

theorem target?_renderDelete (table : Text) (matching : Row) :
    target? (RowStatement.renderDelete table matching) = some table := by
  unfold RowStatement.renderDelete
  simp only [List.append_assoc]
  exact target?_append (by decide) table (head?_cons (by decide) _)

/-! ## The statements for entries -/

/-- The tables of the document that are for users, each with its clause. -/
def userTables (scope : Scope) (d : Document) : List (Text × Text) :=
  ((d.schemaIn scope).map fun s => (forUsers s.tables).entries).getD []

/-- The statements for these tables: each table is dropped and made. -/
def shaping (scope : Scope) (d : Document) : List Text :=
  (d.userTables scope).flatMap fun (table, clause) =>
    [TableDefinition.renderDrop table, TableDefinition.render table clause]

/-- The statements for the changes of rows. -/
def changing (scope : Scope) (d : Document) : List Text :=
  ((d.changesIn scope).map (compileChanges scope.batchInsertSize)).getD []

/-- The further schema statements, which are the author's own. -/
def further (scope : Scope) (d : Document) : List Text :=
  ((d.schemaIn scope).map fun s => SchemaStatement.cleaned s.otherSql).getD []

theorem compile_eq_parts (scope : Scope) (d : Document) : d.compile scope =
    { main := d.shaping scope ++ (d.further scope).filter (!SchemaStatement.makesIndex ·) ++
        d.changing scope
      deferred := (d.further scope).filter SchemaStatement.makesIndex } := by
  cases h : d.schemaIn scope with
  | none =>
    rw [compile_of_no_schema h, shaping, userTables, further, h]
    rfl
  | some s =>
    rw [compile_of_schema h, shaping, userTables, further, h, unreserved_eq_forUsers]
    rfl

theorem target?_of_changing {s : Text} (h : s ∈ d.changing scope) :
    ∃ table, target? s = some table ∧ ¬ IsReservedName table := by
  have huser {table : Text} (htable : Identifier.isReserved table = false) :
      ¬ IsReservedName table := fun hreserved =>
    Bool.false_ne_true (htable.symm.trans (Identifier.isReserved_iff.mpr hreserved))
  obtain ⟨c, -, h⟩ := exists_changes_of_changesIn h
  rcases List.mem_append.mp h with h | h
  · rcases List.mem_append.mp h with h | h
    · obtain ⟨e, -, htable, hs⟩ := mem_sectionStatements.mp h
      obtain ⟨b, -, rfl⟩ := List.mem_map.mp hs
      exact ⟨e.1, target?_renderInsert e.1 b, huser htable⟩
    · obtain ⟨e, -, htable, hs⟩ := mem_sectionStatements.mp h
      obtain ⟨u, -, rfl⟩ := List.mem_map.mp hs
      exact ⟨e.1, target?_renderUpdate e.1 u.assignments u.conditions, huser htable⟩
  · obtain ⟨e, -, htable, hs⟩ := mem_sectionStatements.mp h
    obtain ⟨row, -, rfl⟩ := List.mem_map.mp hs
    exact ⟨e.1, target?_renderDelete e.1 row, huser htable⟩

theorem not_isReservedName_of_userTables {e : Text × Text} (h : e ∈ d.userTables scope) :
    ¬ IsReservedName e.1 := by
  rw [userTables] at h
  cases hschema : d.schemaIn scope with
  | none =>
    rw [hschema] at h
    cases h
  | some schema =>
    rw [hschema] at h
    simpa using (List.mem_filter.mp h).2

/-- **Main.**  A document is compiled as the one without its entries for reserved tables is.  The
statements for an entry that is left are about its table, which is not reserved: the one that drops
the table, the one that makes it unless the clause of the entry goes on with the name, and those for
rows.  Each entry that is removed leaves a line in the log, and the lines are in the order of the
document. -/
theorem reserved_entries_are_left_out (d : Document) (scope : Scope) :
    d.withoutReserved.compile scope = d.compile scope ∧
    (d.compile scope = ⟨d.shaping scope ++
        (d.further scope).filter (!SchemaStatement.makesIndex ·) ++ d.changing scope,
      (d.further scope).filter SchemaStatement.makesIndex⟩ ∧
    (∀ e ∈ d.userTables scope, ¬ IsReservedName e.1 ∧
      target? (TableDefinition.renderDrop e.1) = some e.1 ∧
      (target? (TableDefinition.render e.1 e.2) = some e.1 ∨ GoesOn e.1 e.2)) ∧
    ∀ s ∈ d.changing scope, ∃ table, target? s = some table ∧ ¬ IsReservedName table) ∧
    d.compileLog scope =
      (d.removed scope).map (fun (part, table) => .reservedTableSkipped part table) ++
        [.documentCompiled (d.compile scope).main.length (d.compile scope).deferred.length
          scope.batchInsertSize] := by
  refine ⟨compile_withoutReserved scope d, ⟨compile_eq_parts scope d, fun e he => ?_,
    fun s hs => target?_of_changing hs⟩, compileLog_eq scope d⟩
  refine ⟨not_isReservedName_of_userTables he, target?_renderDrop e.1, ?_⟩
  by_cases hgoes : GoesOn e.1 e.2
  · exact .inr hgoes
  · exact .inl (target?_render hgoes)

/-- A document with a table of the engine's and one for users. -/
def engineAndUser : Document where
  schema? := some ⟨.ofList
    [("SQLite_seq".toList, "(a)".toList), ("Artist".toList, "(a)".toList)], []⟩
  changes? := none

/-- The one is left out, and the other is made. -/
theorem user_table_is_made :
    engineAndUser.removed .standard = [("structure.tables".toList, "SQLite_seq".toList)] ∧
      ("Artist".toList, "(a)".toList) ∈ engineAndUser.userTables .standard ∧
      ¬ GoesOn "Artist".toList "(a)".toList ∧
      target? (TableDefinition.render "Artist".toList "(a)".toList) = some "Artist".toList := by
  have hmem : ("Artist".toList, "(a)".toList) ∈ engineAndUser.userTables .standard := by decide
  have hgoes : ¬ GoesOn "Artist".toList "(a)".toList := by
    rintro (⟨c, hc, h⟩ | h)
    · obtain rfl : '(' = c := Option.some.inj hc
      revert h
      decide
    · revert h
      decide
  obtain ⟨-, ⟨-, hall, -⟩, -⟩ := reserved_entries_are_left_out engineAndUser .standard
  exact ⟨by decide, hmem, hgoes, (hall _ hmem).2.2.resolve_right hgoes⟩

/-! ### A clause that goes on with the name -/

/-- A document with a table whose clause makes it one of the engine's. -/
def goingOn : Document where
  schema? := some ⟨.ofList [("sqlite".toList, "_stat9(a)".toList)], []⟩
  changes? := none

/-- No entry is for a reserved table, and yet a statement makes one. -/
theorem exists_reserved_target :
    goingOn.Accepted ∧ goingOn.removed .standard = [] ∧
      ∃ s ∈ goingOn.shaping .standard, ∃ table, target? s = some table ∧ IsReservedName table ∧
        TableDefinition.parse? s = some (table, "(a)".toList) := by
  refine ⟨.ofValue goingOn.toValue rfl, by decide, "CREATE TABLE sqlite_stat9(a)".toList, by decide,
    "sqlite_stat9".toList, by decide, by decide, by decide⟩

end Document
end SqlInterchange
