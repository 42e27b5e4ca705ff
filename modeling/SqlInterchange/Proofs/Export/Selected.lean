import SqlInterchange.Proofs.Export.Served

/-! # What is selected of a catalog

A row of the catalog is hidden if it has no statement, if its name or the name of its table is
reserved, or if its table is not among those to take.  Hidden rows are passed over and the others
give entries, so a catalog without its hidden rows has the same entries (`entries_without_hidden`).

The tables among the entries can be told from the rows themselves: they are the rows for tables
that have a statement and a name that is neither reserved nor left out (`tables_eq_selected`).  Here
it matters that a row for a table belongs to the table that it names, since rows are hidden by the
one name and tables are read and dropped by the other.
-/
namespace SqlInterchange.Catalog

variable {o : Options} {row : Row} {rows : List Row}

/-- Whether a row of the catalog has all columns and names in them, and is its own if it is for a
table. -/
structure IsNamed (row : Row) : Prop where
  type : ∃ v, row.get? "type".toList = some v
  name : ∃ t, row.get? "name".toList = some (.text t)
  table : ∃ t, row.get? "tbl_name".toList = some (.text t)
  definition : ∃ v, row.get? "sql".toList = some v
  own : said? row "type" = some "table".toList → said? row "name" = said? row "tbl_name"

/-- Whether a row has null for a statement. -/
def hasNoStatement (row : Row) : Bool :=
  match row.get? "sql".toList with
  | some .null => true
  | _ => false

/-- Whether a row is passed over. -/
def isHidden (o : Options) (row : Row) : Bool :=
  hasNoStatement row || (said? row "name").any Identifier.isReserved ||
    (said? row "tbl_name").any fun table => Identifier.isReserved table || !o.includesTable table

/-- The table that a row is for, if the row has a statement and the table is neither reserved nor
left out. -/
def selected? (o : Options) (row : Row) : Option Text :=
  if hasNoStatement row then none
  else (tableName? row).filter fun name => !Identifier.isReserved name && o.includesTable name

/-- The tables that a catalog lists with a statement and that are neither reserved nor left out. -/
def selected (o : Options) (rows : List Row) : List Text := rows.filterMap (selected? o)

theorem hasNoStatement_iff : hasNoStatement row ↔ row.get? "sql".toList = some .null := by
  unfold hasNoStatement
  split
  · next h => exact iff_of_true rfl h
  · next h => exact iff_of_false Bool.false_ne_true h

/-- A named row is passed over if it is hidden, and gives an entry if not. -/
theorem taken?_of_named (o : Options) (h : IsNamed row) :
    isHidden o row = true ∧ taken? o row = .ok none ∨
      isHidden o row = false ∧ ∃ e, taken? o row = .ok (some e) := by
  obtain ⟨⟨type, htype⟩, ⟨name, hname⟩, ⟨table, htable⟩, ⟨definition, hdefinition⟩, -⟩ := h
  have hhidden : isHidden o row = (hasNoStatement row || (Identifier.isReserved name ||
      (Identifier.isReserved table || !o.includesTable table))) := by
    simp only [isHidden, said?, hname, htable, Option.bind_some, Value.text?, Option.any_some,
      Bool.or_assoc]
  by_cases hnull : definition = .null
  · subst hnull
    exact .inl ⟨by simp [hhidden, hasNoStatement_iff.mpr hdefinition], taken?_of_null o hdefinition⟩
  · have hstatement : hasNoStatement row = false := by
      rw [← Bool.not_eq_true, hasNoStatement_iff, hdefinition]
      exact fun heq => hnull (Option.some.inj heq)
    rw [hhidden, hstatement, Bool.false_or,
      taken?_of_columns o htype hname htable hdefinition hnull]
    cases Identifier.isReserved name || (Identifier.isReserved table || !o.includesTable table) with
    | true => exact .inl ⟨rfl, rfl⟩
    | false => exact .inr ⟨rfl, _, rfl⟩

/-- The entries of a catalog of named rows are those of the rows that are not hidden. -/
theorem entries_without_hidden (h : ∀ row ∈ rows, IsNamed row) :
    ∃ es, entries o rows = .ok es ∧ entries o (rows.filter (!isHidden o ·)) = .ok es := by
  induction rows with
  | nil => exact ⟨[], rfl, rfl⟩
  | cons row rows ih =>
    obtain ⟨hrow, hrows⟩ := List.forall_mem_cons.mp h
    obtain ⟨es, hes, hvisible⟩ := ih hrows
    rcases taken?_of_named o hrow with ⟨hhidden, hnone⟩ | ⟨hhidden, e, hsome⟩
    · refine ⟨es, ?_, ?_⟩
      · rw [entries, hnone, hes]
        rfl
      · rwa [List.filter_cons_of_neg (by simp [hhidden])]
    · refine ⟨e :: es, ?_, ?_⟩
      · rw [entries, hsome, hes]
        rfl
      · rw [List.filter_cons_of_pos (by simp [hhidden]), entries, hsome, hvisible]
        rfl

theorem tableName?_eq_some {name : Text} (h : tableName? row = some name) :
    said? row "type" = some "table".toList ∧ said? row "name" = some name := by
  unfold tableName? at h
  split at h
  · next htype => exact ⟨htype, h⟩
  · cases h

theorem selected?_of_hidden (hrow : IsNamed row) (h : isHidden o row = true) :
    selected? o row = none := by
  rw [selected?]
  split
  · rfl
  · next hstatement =>
    rw [Option.filter_eq_none_iff]
    intro name hname
    obtain ⟨htype, hsaid⟩ := tableName?_eq_some hname
    -- the row is for the table that it names
    have htable : said? row "tbl_name" = some name := (hrow.own htype).symm.trans hsaid
    simp only [isHidden, hsaid, htable, Option.any_some, Bool.or_eq_true, hstatement,
      Bool.false_eq_true, false_or] at h
    rcases h with hreserved | hreserved | hout
    · simp [hreserved]
    · simp [hreserved]
    · simp [Bool.not_eq_true' _ ▸ hout]

theorem selected?_of_isOf {e : Entry} (hrow : IsNamed row) (h : e.IsOf o row) :
    selected? o row = if e.isTable then some e.name else none := by
  have hstatement : ¬hasNoStatement row := by
    rw [hasNoStatement_iff, h.definition]
    exact fun heq => h.defined (Option.some.inj heq)
  rw [selected?, if_neg hstatement, h.tableName?]
  split
  · next htable =>
    have htype : said? row "type" = some "table".toList := by
      rw [said?, h.type]
      exact eq_of_beq htable
    have hsame : e.name = e.table := by
      have hown := hrow.own htype
      simp only [said?, h.name, h.table, Option.bind_some, Value.text?] at hown
      exact Option.some.inj hown
    rw [Option.filter_some, if_pos]
    rw [h.unreserved, hsame, h.included]
    rfl
  · rfl

/-- The tables among the entries are the selected ones. -/
theorem tables_eq_selected (h : ∀ row ∈ rows, IsNamed row) {es : List Entry}
    (hes : entries o rows = .ok es) : tables es = selected o rows := by
  induction rows generalizing es with
  | nil =>
    cases hes
    rfl
  | cons row rows ih =>
    obtain ⟨hrow, hrows⟩ := List.forall_mem_cons.mp h
    obtain ⟨first?, rest, hfirst, hrest, rfl⟩ := entries_cons_eq_ok hes
    rcases taken?_of_named o hrow with ⟨hhidden, hnone⟩ | ⟨-, e, hsome⟩
    · obtain rfl := Except.ok.inj (hfirst.symm.trans hnone)
      rw [selected, List.filterMap_cons_none (selected?_of_hidden hrow hhidden)]
      exact ih hrows hrest
    · obtain rfl := Except.ok.inj (hfirst.symm.trans hsome)
      have hselected := selected?_of_isOf hrow (isOf_of_taken? hsome)
      show tables (e :: rest) = _
      by_cases htable : e.isTable
      · rw [if_pos htable] at hselected
        rw [tables, List.filter_cons_of_pos htable, selected, List.filterMap_cons_some hselected]
        exact congrArg (e.name :: ·) (ih hrows hrest)
      · rw [if_neg htable] at hselected
        rw [tables, List.filter_cons_of_neg htable, selected, List.filterMap_cons_none hselected]
        exact ih hrows hrest

end SqlInterchange.Catalog
