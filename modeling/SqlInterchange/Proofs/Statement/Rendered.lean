import SqlInterchange.Compile
import SqlInterchange.Proofs.Script.Verbatim

/-! # Rendered statements are intact

The statements that are made of names and values, and of nothing else: drops, inserts, updates and
deletes.  Names stand bare, if all their characters are calm, or between back-ticks; values stand
between apostrophes; the words around them are calm.  Therefore each such statement is intact, for
arbitrary names and values, as long as there is something to write: a row without columns leaves a
list of columns empty, and then a statement would end in a blank.
-/
namespace SqlInterchange

open Script

/-! ## Names -/

theorem Script.isCalm_of_isAlphanum {c : Char} (h : c.isAlphanum) : isCalm c := by
  simp only [isCalm, isQuote, Identifier.backtick, Text.isLineBreak, Bool.not_eq_true',
    Bool.or_eq_false_iff, beq_eq_false_iff_ne]
  refine ⟨⟨⟨⟨⟨⟨?_, ?_⟩, ?_⟩, ?_, ?_⟩, ?_⟩, ?_⟩, ?_⟩ <;> rintro rfl <;> exact absurd h (by decide)

theorem Text.isBlank_of_isAlphanum {c : Char} (h : c.isAlphanum) : isBlank c = false := by
  have hupper : c.isUpper → 65 ≤ c.toNat ∧ c.toNat ≤ 90 := fun h => of_decide_eq_true h
  have hlower : c.isLower → 97 ≤ c.toNat ∧ c.toNat ≤ 122 := fun h =>
    ⟨of_decide_eq_true (Bool.and_eq_true_iff.mp h).1,
      of_decide_eq_true (Bool.and_eq_true_iff.mp h).2⟩
  have hdigit : c.isDigit → 48 ≤ c.toNat ∧ c.toNat ≤ 57 := Char.isDigit_iff_toNat.mp
  have hrange : 48 ≤ c.toNat ∧ c.toNat ≤ 122 := by
    rcases Bool.or_eq_true_iff.mp h with h | h
    · rcases Bool.or_eq_true_iff.mp h with h | h
      · have := hupper h
        omega
      · have := hlower h
        omega
    · have := hdigit h
      omega
  simp [isBlank]
  omega

namespace Identifier

theorem isQuote_backtick : isQuote backtick := by decide

/-- A bare name is made of letters and digits. -/
theorem isAlphanum_of_isBare {name : Text} (h : isBare name) : ∀ c ∈ name, c.isAlphanum := by
  cases name with
  | nil => simp
  | cons c cs =>
    obtain ⟨hc, hcs⟩ : c.isAlpha ∧ cs.all Char.isAlphanum := by simpa [isBare] using h
    intro d hd
    rcases List.mem_cons.mp hd with rfl | hd
    · simp [Char.isAlphanum, hc]
    · exact List.all_eq_true.mp hcs d hd

theorem firm_escape (name : Text) : Firm (escape name) := by
  rw [escape]
  split
  · next h =>
    -- a bare name is calm, and its last character is no blank
    have halnum := isAlphanum_of_isBare h
    have hne : name ≠ [] := by
      rintro rfl
      cases h
    refine .of_calm (List.all_eq_true.mpr fun c hc => isCalm_of_isAlphanum (halnum c hc)) ?_
    exact ⟨name.getLast hne, List.getLast?_eq_some_getLast hne,
      Text.isBlank_of_isAlphanum (halnum _ (List.getLast_mem hne))⟩
  · exact .quoted isQuote_backtick (by decide) name

end Identifier

/-! ## Values -/

namespace Literal

theorem isQuote_apostrophe : isQuote apostrophe := by decide

theorem firm_render (v : Value) : Firm (render v) := by
  rw [render, sanitize]
  cases content? v with
  | none => exact .of_calm (by decide) ⟨'L', by decide, by decide⟩
  | some t => exact .quoted isQuote_apostrophe (by decide) t

end Literal

theorem Text.hexDigit_ne_apostrophe : ∀ d < 16, hexDigit d ≠ Literal.apostrophe := by decide

theorem Text.apostrophe_not_mem_hex (width n : Nat) : Literal.apostrophe ∉ hex width n := by
  induction width generalizing n with
  | zero => simp [hex]
  | succ width ih =>
    rw [hex, List.mem_append, List.mem_singleton, not_or]
    exact ⟨ih (n / 16), (hexDigit_ne_apostrophe _ (Nat.mod_lt _ (by decide))).symm⟩

theorem Literal.verbatim_renderStored (v : Value) : Verbatim (renderStored v) := by
  cases v with
  | bytes bs =>
    have hbody : apostrophe ∉ bs.flatMap fun b => Text.hex 2 b.toNat := by
      rw [List.mem_flatMap]
      rintro ⟨b, -, hb⟩
      exact Text.apostrophe_not_mem_hex 2 b.toNat hb
    -- the digits have no apostrophe that would have to be doubled
    have hquoted := Verbatim.quoted isQuote_apostrophe (bs.flatMap fun b => Text.hex 2 b.toNat)
    rw [Identifier.double_eq_self hbody] at hquoted
    exact (Verbatim.of_calm (t := ['X']) (by decide)).append hquoted
  | null => exact (firm_render .null).verbatim
  | bool b => exact (firm_render (.bool b)).verbatim
  | int n => exact (firm_render (.int n)).verbatim
  | float x => exact (firm_render (.float x)).verbatim
  | text t => exact (firm_render (.text t)).verbatim
  | absent => exact (firm_render .absent).verbatim
  | list items => exact (firm_render (.list items)).verbatim
  | object fields => exact (firm_render (.object fields)).verbatim

/-! ## Statements -/

theorem TableDefinition.intact_renderDrop (table : Text) : Intact (renderDrop table) :=
  .of_words _ (by decide) ⟨'D', by decide, by decide⟩ (Identifier.firm_escape table)

namespace RowStatement

theorem verbatim_list {α : Type} {f : α → Text} (as : List α) (h : ∀ a, Verbatim (f a)) :
    Verbatim (Text.joinWith ", " (as.map f)) := by
  refine .joinWith (by decide) fun part hpart => ?_
  obtain ⟨a, -, rfl⟩ := List.mem_map.mp hpart
  exact h a

theorem firm_list {α : Type} {f : α → Text} {separator : String}
    (hsep : separator.toList.all isCalm) {as : List α} (hne : as ≠ []) (h : ∀ a, Firm (f a)) :
    Firm (Text.joinWith separator (as.map f)) := by
  refine .joinWith hsep (by simpa using hne) fun part hpart => ?_
  obtain ⟨a, -, rfl⟩ := List.mem_map.mp hpart
  exact h a

theorem verbatim_columnList (columns : List Text) : Verbatim (columnList columns) :=
  verbatim_list columns fun name => (Identifier.firm_escape name).verbatim

theorem verbatim_target (table : Text) (columns : List Text) :
    Verbatim (Identifier.escape table ++ '(' :: columnList columns) :=
  (Identifier.firm_escape table).verbatim.append
    ((Verbatim.of_calm (t := ['(']) (by decide)).append (verbatim_columnList columns))

theorem firm_projection {row : Row} (h : row.entries ≠ []) : Firm (projection row) :=
  firm_list (by decide) h fun (column, value) =>
    .append ((Literal.firm_render value).verbatim.append (.of_calm (by decide)))
      (Identifier.firm_escape column)

theorem firm_unionPart {columns : List Text} (h : columns ≠ []) (row : Row) :
    Firm (unionPart columns row) :=
  .append (.of_calm (by decide)) (firm_list (by decide) h fun _ => Literal.firm_render _)

/-- An insert is intact if its first row has a column. -/
theorem intact_renderInsert (table : Text) {b : Batch} (h : b.first.entries ≠ []) :
    Intact (renderInsert table b) := by
  have hkeys : b.first.keys ≠ [] := by simpa [OrderedMap.keys] using h
  have hrows : Firm (projection b.first ++ b.others.flatMap (unionPart b.first.keys)) :=
    (firm_projection h).append_flatMap fun row _ => firm_unionPart hkeys row
  have hselect : Verbatim (") SELECT ".toList) := .of_calm (by decide)
  have hrest := Firm.append ((verbatim_target table b.first.keys).append hselect) hrows
  have hinsert := Intact.of_words "INSERT OR REPLACE INTO ".toList (by decide)
    ⟨'I', by decide, by decide⟩ hrest
  unfold renderInsert
  simpa only [List.append_assoc] using hinsert

/-- An insert of stored cells is intact, whatever the cells are. -/
theorem intact_renderStored (table : Text) (row : Row) : Intact (renderStored table row) := by
  have hvalues : Verbatim (Text.joinWith ", " (row.values.map Literal.renderStored)) :=
    verbatim_list row.values Literal.verbatim_renderStored
  have hrest : Firm (Identifier.escape table ++ '(' :: columnList row.keys ++
      ") VALUES (".toList ++ Text.joinWith ", " (row.values.map Literal.renderStored) ++ [')']) :=
    .append (((verbatim_target table _).append (.of_calm (by decide))).append hvalues)
      (.of_calm (by decide) ⟨')', by decide, by decide⟩)
  have hinsert := Intact.of_words "INSERT OR REPLACE INTO ".toList (by decide)
    ⟨'I', by decide, by decide⟩ hrest
  unfold renderStored
  simpa only [List.append_assoc] using hinsert

theorem firm_assignment (field : Text × Value) : Firm (assignment field) :=
  .append (Identifier.firm_escape field.1).verbatim
    (.append (s := ['=']) (.of_calm (by decide)) (Literal.firm_render field.2))

theorem firm_condition (field : Text × Value) : Firm (condition field) := by
  rw [condition]
  split
  · exact .append (Identifier.firm_escape field.1).verbatim
      (.of_calm (by decide) ⟨'L', by decide, by decide⟩)
  · exact firm_assignment field

theorem firm_conditions {row : Row} (h : row.entries ≠ []) : Firm (conditions row) :=
  firm_list (by decide) h firm_condition

/-- An update is intact if it changes a column. -/
theorem intact_renderUpdate (table : Text) {assignments : Row} (h : assignments.entries ≠ [])
    (matching : Row) : Intact (renderUpdate table assignments matching) := by
  have hset : Firm (Identifier.escape table ++ " SET ".toList ++
      Text.joinWith ", " (assignments.entries.map assignment)) :=
    .append ((Identifier.firm_escape table).verbatim.append (.of_calm (by decide)))
      (firm_list (by decide) h firm_assignment)
  have hall : Firm (Identifier.escape table ++ " SET ".toList ++
      Text.joinWith ", " (assignments.entries.map assignment) ++
      if matching.isEmpty then [] else " WHERE ".toList ++ conditions matching) := by
    by_cases hm : matching.isEmpty
    · simpa [hm] using hset
    · have hwhere : Firm (" WHERE ".toList ++ conditions matching) :=
        .append (.of_calm (by decide)) (firm_conditions (by simpa [OrderedMap.isEmpty] using hm))
      rw [if_neg hm]
      exact .append hset.verbatim hwhere
  have hupdate := Intact.of_words "UPDATE ".toList (by decide)
    ⟨'U', by decide, by decide⟩ hall
  unfold renderUpdate
  simpa only [List.append_assoc] using hupdate

/-- A delete is intact if it matches a column. -/
theorem intact_renderDelete (table : Text) {matching : Row} (h : matching.entries ≠ []) :
    Intact (renderDelete table matching) := by
  have hrest : Firm (Identifier.escape table ++ " WHERE ".toList ++ conditions matching) :=
    .append ((Identifier.firm_escape table).verbatim.append (.of_calm (by decide)))
      (firm_conditions h)
  have hdelete := Intact.of_words "DELETE FROM ".toList (by decide)
    ⟨'D', by decide, by decide⟩ hrest
  unfold renderDelete
  simpa only [List.append_assoc] using hdelete

end RowStatement
end SqlInterchange
