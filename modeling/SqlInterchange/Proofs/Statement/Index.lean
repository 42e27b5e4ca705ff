import SqlInterchange.Proofs.Script.Wrapper
import SqlInterchange.Proofs.Statement.Written

/-! # Index statements come last

A statement makes an index if it begins with the words for it: `CREATE`, perhaps `UNIQUE`, and
`INDEX` (`makesIndex_iff`).  Such statements form the second group of a compiled document.  The
first group has none: the further schema statements are sorted, tables are made by other words, and
changes of rows are written by the library.
-/
namespace SqlInterchange

namespace SchemaStatement

open Script (IsWord Trails stripNextWord?)

variable {s : Text}

/-- Whether a statement begins with the words that make an index, in any letter case: blanks, if
any, then `CREATE`, perhaps `UNIQUE`, and `INDEX` with blanks between them, and no word that goes on
behind the last one. -/
def IsIndexing (s : Text) : Prop :=
  ∃ before create words behind, s = before ++ (create ++ (words ++ behind)) ∧
    before.all Text.isBlank ∧ IsWord "CREATE" create ∧
    (∃ adjective ∈ [[], ["UNIQUE"]], Trails (adjective ++ ["INDEX"]) words) ∧
    ∀ c ∈ behind.head?, Text.isWordChar c = false

theorem endsWord_iff {t : Text} : Text.endsWord t ↔ ∀ c ∈ t.head?, Text.isWordChar c = false := by
  cases t <;> simp [Text.endsWord]

theorem any_startsWithIndex (t : Text) : (Text.stripBlanks? t).any startsWithIndex =
    (stripNextWord? "INDEX" t).any Text.endsWord := by
  cases h : Text.stripBlanks? t with
  | none => rw [stripNextWord?, h]; rfl
  | some t => rw [stripNextWord?, h]; rfl

/-- The word `INDEX` comes next, or `UNIQUE` and then `INDEX`. -/
theorem makesIndex_eq (s : Text) : makesIndex s =
    (Text.stripWord? "CREATE".toList (Text.trimStart s)).any fun rest =>
      (stripNextWord? "INDEX" rest).any Text.endsWord ||
        ((stripNextWord? "UNIQUE" rest).bind (stripNextWord? "INDEX")).any Text.endsWord := by
  rw [makesIndex, afterCreate?]
  cases Text.stripWord? "CREATE".toList (Text.trimStart s) with
  | none => rfl
  | some rest =>
    rw [Option.bind_some, Option.any_some, stripNextWord?, stripNextWord?]
    cases Text.stripBlanks? rest with
    | none => rfl
    | some t =>
      rw [Option.any_some, Option.bind_some, Option.bind_some, startsWithIndex, afterUnique?]
      cases Text.stripWord? "UNIQUE".toList t with
      | none => rfl
      | some next => rw [Option.bind_some, Option.bind_some, any_startsWithIndex]

/-- Words for an index are stripped one by one. -/
theorem exists_trails_iff {t behind : Text} :
    (∃ adjective ∈ [[], ["UNIQUE"]], ∃ words, Trails (adjective ++ ["INDEX"]) words ∧
      t = words ++ behind) ↔
    stripNextWord? "INDEX" t = some behind ∨
      (stripNextWord? "UNIQUE" t).bind (stripNextWord? "INDEX") = some behind := by
  have hindex {t : Text} : (∃ words, Trails ["INDEX"] words ∧ t = words ++ behind) ↔
      stripNextWord? "INDEX" t = some behind := by
    rw [Script.exists_trails_cons_iff (by decide)]
    simp only [Script.exists_trails_nil_iff, exists_eq_right]
  have hunique : (∃ words, Trails ["UNIQUE", "INDEX"] words ∧ t = words ++ behind) ↔
      (stripNextWord? "UNIQUE" t).bind (stripNextWord? "INDEX") = some behind := by
    rw [Script.exists_trails_cons_iff (by decide), Option.bind_eq_some_iff]
    simp only [hindex]
  rw [← hindex, ← hunique]
  simp

/-- **The words decide which statements make an index.** -/
theorem makesIndex_iff : makesIndex s ↔ IsIndexing s := by
  rw [makesIndex_eq, Option.any_eq_true]
  simp only [Bool.or_eq_true, Option.any_eq_true, endsWord_iff, ← exists_or, ← or_and_right,
    ← exists_trails_iff]
  constructor
  · rintro ⟨rest, hcreate, behind, ⟨adjective, hadjective, words, htrails, rfl⟩, hends⟩
    obtain ⟨create, hword, hrest⟩ := Script.exists_of_stripWord? hcreate
    obtain ⟨before, hbefore, hs⟩ := Text.exists_trimStart s
    exact ⟨before, create, words, behind, hrest ▸ hs, hbefore, hword,
      ⟨adjective, hadjective, htrails⟩, hends⟩
  · rintro ⟨before, create, words, behind, rfl, hbefore, hword, ⟨adjective, hadjective, htrails⟩,
      hends⟩
    refine ⟨words ++ behind, ?_, behind, ⟨adjective, hadjective, words, htrails, rfl⟩, hends⟩
    rw [Text.trimStart_append hbefore, Text.trimStart_eq_self (hword.head? (by decide) _),
      Script.stripWord?_append hword]

/-- Only words that start with a certain letter make an index. -/
theorem makesIndex_of_head {c : Char} (h : c ∈ s.head?) (hink : Text.isBlank c = false)
    (hfold : Text.foldsTo 'C' c = false) : makesIndex s = false := by
  refine Bool.eq_false_iff.mpr fun hindex => ?_
  obtain ⟨before, create, words, behind, rfl, hbefore, hword, -⟩ := makesIndex_iff.mp hindex
  cases before with
  | nil =>
    cases hword with
    | cons hfold' _ =>
      obtain rfl := Option.some.inj h
      exact Bool.false_ne_true (hfold.symm.trans hfold')
  | cons d before =>
    obtain rfl := Option.some.inj h
    exact Bool.false_ne_true (hink.symm.trans (Bool.and_eq_true_iff.mp hbefore).1)

theorem makesIndex_drop (table : Text) : makesIndex (TableDefinition.renderDrop table) = false :=
  makesIndex_of_head (c := 'D') rfl (by decide) (by decide)

theorem makesIndex_render (table clause : Text) :
    makesIndex (TableDefinition.render table clause) = false := rfl

theorem makesIndex_change (h : Document.ChangeStatement s) : makesIndex s = false := by
  cases h with
  | insert table b h => exact makesIndex_of_head (c := 'I') rfl (by decide) (by decide)
  | update table u h => exact makesIndex_of_head (c := 'U') rfl (by decide) (by decide)
  | delete table matching h => exact makesIndex_of_head (c := 'D') rfl (by decide) (by decide)

end SchemaStatement

namespace Document

variable {d : Document} {scope : Scope} {s : Text}

theorem makesIndex_of_tableStatements {tables : OrderedMap Text}
    (h : s ∈ tableStatements tables) : SchemaStatement.makesIndex s = false := by
  obtain ⟨⟨table, clause⟩, -, rfl | rfl⟩ := mem_tableStatements h
  · exact SchemaStatement.makesIndex_drop table
  · exact SchemaStatement.makesIndex_render table clause

theorem makesIndex_of_changesIn (hd : d.Accepted)
    (h : s ∈ ((d.changesIn scope).map (compileChanges scope.batchInsertSize)).getD []) :
    SchemaStatement.makesIndex s = false := by
  obtain ⟨c, hc, hs⟩ := exists_changes_of_changesIn h
  have hchange := changeStatement_of_compileChanges (hd.wellFormed c hc) hs
  exact SchemaStatement.makesIndex_change hchange

theorem makesIndex_of_main (hd : d.Accepted) (h : s ∈ (d.compile scope).main) :
    SchemaStatement.makesIndex s = false := by
  cases hschema : d.schemaIn scope with
  | none =>
    rw [compile_of_no_schema hschema] at h
    exact makesIndex_of_changesIn hd h
  | some schema =>
    rw [compile_of_schema hschema] at h
    -- tables, further schema statements, changes
    rcases List.mem_append.mp h with h | h
    · rcases List.mem_append.mp h with h | h
      · exact makesIndex_of_tableStatements h
      · simpa using (List.mem_filter.mp h).2
    · exact makesIndex_of_changesIn hd h

theorem makesIndex_of_deferred (h : s ∈ (d.compile scope).deferred) :
    SchemaStatement.makesIndex s = true := by
  cases hschema : d.schemaIn scope with
  | none =>
    rw [compile_of_no_schema hschema] at h
    cases h
  | some schema =>
    rw [compile_of_schema hschema] at h
    exact (List.mem_filter.mp h).2

/-- **Main.** No statement after one that makes an index makes none. -/
theorem pairwise_makesIndex (hd : d.Accepted) (scope : Scope) :
    (d.compile scope).statements.Pairwise fun s t =>
      SchemaStatement.makesIndex s = true → SchemaStatement.makesIndex t = true := by
  refine List.pairwise_append.mpr ⟨?_, ?_, fun s _ t ht _ => makesIndex_of_deferred ht⟩
  · refine List.pairwise_of_forall_mem_list fun s hs t _ hindex => ?_
    rw [makesIndex_of_main hd hs] at hindex
    cases hindex
  · exact List.pairwise_of_forall_mem_list fun s _ t ht _ => makesIndex_of_deferred ht

end Document
end SqlInterchange
