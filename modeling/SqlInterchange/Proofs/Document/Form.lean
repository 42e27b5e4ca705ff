import Mathlib.Data.List.Forall2
import SqlInterchange.Document.Shape

/-! # The form of a document

A form says what a value is asked to be.  The form of documents (`Form.document`) is data, apart
from the checks that go by it, and three relations give it meaning.  A value fits a form.  Or it
breaks the form at a place: the way there is that of names and numbers of items, and what is wrong
there is one of the defects.  And a value that fits the form of a document is held by one: its
entries are those of the document, in the same order and with the same scalars, and a section that
is absent is empty.

No value fits a form and breaks it (`Form.Breaks.not_fits`), and where a form is broken is inside
the value (`Form.Breaks.isInside`).
-/
namespace SqlInterchange

/-- Values as they come from JSON: no byte strings and no mark of absence are among them, and no
object has a name twice. -/
inductive Value.IsDecoded : Value → Prop
  | null : IsDecoded .null
  | bool (b : Bool) : IsDecoded (.bool b)
  | int (n : Int) : IsDecoded (.int n)
  | float (x : Binary64) : IsDecoded (.float x)
  | text (t : Text) : IsDecoded (.text t)
  | list {vs : List Value} (h : ∀ v ∈ vs, IsDecoded v) : IsDecoded (.list vs)
  | object {fs : List (Text × Value)} (hnodup : (fs.map Prod.fst).Nodup)
    (h : ∀ f ∈ fs, IsDecoded f.2) : IsDecoded (.object fs)

namespace Shape

/-! ## Forms -/

/-- What a value is asked to be. -/
inductive Form where
  /-- A text. -/
  | text
  /-- A scalar. -/
  | scalar
  /-- A list of items of a form. -/
  | list (item : Form)
  /-- A map to values of a form. -/
  | map (value : Form)
  /-- An object of a form that has a field. -/
  | filled (form : Form)
  /-- An object that has no other fields than these, and those that are needed. -/
  | part (fields : List (String × Form)) (needed : List String)
  /-- Null or of a form. -/
  | nullable (form : Form)

namespace Form

/-- The form of a row. -/
def row : Form := filled (map scalar)

/-- The form of one change of rows. -/
def update : Form := part [("set", row), ("where", map scalar)] ["set"]

/-- The form of the shape of tables. -/
def schema : Form := part [("tables", map text), ("otherSQL", list text)] []

/-- The form of changes of rows. -/
def changes : Form :=
  part [("inserts", map (list row)), ("updates", map (list update)), ("deletes", map (list row))] []

/-- The form of a document. -/
def document : Form := part [("structure", nullable schema), ("data", nullable changes)] []

/-- Whether a value is what a form asks for. -/
inductive Fits : Form → Value → Prop
  | text (t : Text) : Fits .text (.text t)
  | scalar {v : Value} (h : v.isScalar = true) : Fits .scalar v
  | list {item : Form} {vs : List Value} (h : ∀ v ∈ vs, Fits item v) : Fits (.list item) (.list vs)
  | map {value : Form} {fs : List (Text × Value)} (h : ∀ f ∈ fs, Fits value f.2) :
    Fits (.map value) (.object fs)
  | filled {form : Form} {v : Value} (hfilled : v ≠ .object []) (h : Fits form v) :
    Fits (.filled form) v
  | part {fields : List (String × Form)} {needed : List String} {fs : List (Text × Value)}
    (hknown : ∀ f ∈ fs, ∃ field ∈ fields, field.1.toList = f.1)
    (hneeded : ∀ name ∈ needed, name.toList ∈ fs.map Prod.fst)
    (h : ∀ field ∈ fields, ∀ v, (field.1.toList, v) ∈ fs → Fits field.2 v) :
    Fits (.part fields needed) (.object fs)
  | null {form : Form} : Fits (.nullable form) .null
  | present {form : Form} {v : Value} (h : Fits form v) : Fits (.nullable form) v

/-- The kinds of scalars, by the names that stand for them in places, and the defect of being none
of a kind. -/
def scalarKinds : List (String × Defect) :=
  [("bool", .notABool), ("int", .notAnInteger), ("float", .notAFloat), ("str", .notAText)]

/-- Where a value is not what a form asks for, and what is wrong there. -/
inductive Breaks : Form → Value → Location → Defect → Prop
  | notAText {v : Value} (h : ∀ t, v ≠ .text t) : Breaks .text v [] .notAText
  | notAScalar {v : Value} {kind : String × Defect} (h : v.isScalar = false)
    (hkind : kind ∈ scalarKinds) : Breaks .scalar v [kind.1.toList] kind.2
  | notAList {item : Form} {v : Value} (h : ∀ vs, v ≠ .list vs) :
    Breaks (.list item) v [] .notAList
  | item {item : Form} {vs : List Value} {i : Nat} {v : Value} {l : Location} {d : Defect}
    (hv : vs[i]? = some v) (h : Breaks item v l d) :
    Breaks (.list item) (.list vs) (Decimal.digits i :: l) d
  | notAMap {value : Form} {v : Value} (h : ∀ fs, v ≠ .object fs) :
    Breaks (.map value) v [] .notAMap
  | value {value : Form} {fs : List (Text × Value)} {f : Text × Value} {l : Location} {d : Defect}
    (hf : f ∈ fs) (h : Breaks value f.2 l d) : Breaks (.map value) (.object fs) (f.1 :: l) d
  | tooShort {form : Form} : Breaks (.filled form) (.object []) [] .tooShort
  | filled {form : Form} {v : Value} {l : Location} {d : Defect} (h : Breaks form v l d) :
    Breaks (.filled form) v l d
  | notAnObject {fields : List (String × Form)} {needed : List String} {v : Value}
    (h : ∀ fs, v ≠ .object fs) : Breaks (.part fields needed) v [] .notAnObject
  | unknownField {fields : List (String × Form)} {needed : List String} {fs : List (Text × Value)}
    {f : Text × Value} (hf : f ∈ fs) (h : ∀ field ∈ fields, field.1.toList ≠ f.1) :
    Breaks (.part fields needed) (.object fs) [f.1] .unknownField
  | missing {fields : List (String × Form)} {needed : List String} {fs : List (Text × Value)}
    {name : String} (hname : name ∈ needed) (h : name.toList ∉ fs.map Prod.fst) :
    Breaks (.part fields needed) (.object fs) [name.toList] .missing
  | field {fields : List (String × Form)} {needed : List String} {fs : List (Text × Value)}
    {field : String × Form} {v : Value} {l : Location} {d : Defect} (hfield : field ∈ fields)
    (hv : (field.1.toList, v) ∈ fs) (h : Breaks field.2 v l d) :
    Breaks (.part fields needed) (.object fs) (field.1.toList :: l) d
  | present {form : Form} {v : Value} {l : Location} {d : Defect} (hv : v ≠ .null)
    (h : Breaks form v l d) : Breaks (.nullable form) v l d

/-- A value that breaks a form does not fit it. -/
theorem Breaks.not_fits {form : Form} {v : Value} {l : Location} {d : Defect}
    (h : form.Breaks v l d) : ¬form.Fits v := by
  induction h with
  | notAText h => exact fun | .text t => h t rfl
  | notAScalar h _ => exact fun | .scalar hv => by simp [h] at hv
  | notAList h => exact fun | .list _ => h _ rfl
  | item hv _ ih => exact fun | .list hvs => ih (hvs _ (List.mem_of_getElem? hv))
  | notAMap h => exact fun | .map _ => h _ rfl
  | value hf _ ih => exact fun | .map hfs => ih (hfs _ hf)
  | tooShort => exact fun | .filled hfilled _ => hfilled rfl
  | filled _ ih => exact fun | .filled _ hv => ih hv
  | notAnObject h => exact fun | .part _ _ _ => h _ rfl
  | unknownField hf h =>
    rintro (_ | _ | _ | _ | _ | ⟨hknown, -, -⟩)
    obtain ⟨field, hfield, hname⟩ := hknown _ hf
    exact h field hfield hname
  | missing hname h => exact fun | .part _ hneeded _ => h (hneeded _ hname)
  | field hfield hv _ ih => exact fun | .part _ _ hfields => ih (hfields _ hfield _ hv)
  | present hv _ ih =>
    intro hfits
    cases hfits with
    | null => exact hv rfl
    | present hfits => exact ih hfits

/-- A value that breaks a form nowhere fits it. -/
theorem fits_of_unbroken : ∀ (form : Form) {v : Value}, (∀ l d, ¬form.Breaks v l d) → form.Fits v
  | .text, v, h => by
    obtain ⟨t, rfl⟩ : ∃ t, v = .text t := by
      by_contra hv
      exact h _ _ (.notAText fun t ht => hv ⟨t, ht⟩)
    exact .text t
  | .scalar, v, h => by
    cases hv : v.isScalar with
    | true => exact .scalar hv
    | false => exact absurd (.notAScalar hv (List.mem_cons_self ..)) (h _ _)
  | .list item, v, h => by
    obtain ⟨vs, rfl⟩ : ∃ vs, v = .list vs := by
      by_contra hv
      exact h _ _ (.notAList fun vs hvs => hv ⟨vs, hvs⟩)
    refine .list fun v hv => ?_
    obtain ⟨i, hi⟩ := List.mem_iff_getElem?.mp hv
    exact fits_of_unbroken item fun l d hbreaks => h _ _ (.item hi hbreaks)
  | .map value, v, h => by
    obtain ⟨fs, rfl⟩ : ∃ fs, v = .object fs := by
      by_contra hv
      exact h _ _ (.notAMap fun fs hfs => hv ⟨fs, hfs⟩)
    exact .map fun f hf => fits_of_unbroken value fun l d hbreaks => h _ _ (.value hf hbreaks)
  | .filled form, v, h => by
    refine .filled ?_ (fits_of_unbroken form fun l d hbreaks => h _ _ (.filled hbreaks))
    rintro rfl
    exact h _ _ .tooShort
  | .part fields needed, v, h => by
    obtain ⟨fs, rfl⟩ : ∃ fs, v = .object fs := by
      by_contra hv
      exact h _ _ (.notAnObject fun fs hfs => hv ⟨fs, hfs⟩)
    refine .part ?_ ?_ ?_
    · intro f hf
      by_contra hunknown
      push Not at hunknown
      exact h _ _ (.unknownField hf hunknown)
    · intro name hname
      by_contra hmissing
      exact h _ _ (.missing hname hmissing)
    · intro field hfield v hv
      have : sizeOf field.2 < 1 + sizeOf fields + sizeOf needed := by
        have hlt := List.sizeOf_lt_of_mem hfield
        have hfst : sizeOf field = 1 + sizeOf field.1 + sizeOf field.2 := rfl
        omega
      exact fits_of_unbroken field.2 fun l d hbreaks => h _ _ (.field hfield hv hbreaks)
  | .nullable form, v, h => by
    by_cases hv : v = .null
    · exact hv ▸ .null
    · exact .present (fits_of_unbroken form fun l d hbreaks => h _ _ (.present hv hbreaks))
termination_by form => sizeOf form

/-! ## Places inside a value -/

/-- Whether no other field than this one is needed in a form. -/
inductive NeedsOnly (name : String) : Form → Prop
  | text : NeedsOnly name .text
  | scalar : NeedsOnly name .scalar
  | list {item : Form} (h : NeedsOnly name item) : NeedsOnly name (.list item)
  | map {value : Form} (h : NeedsOnly name value) : NeedsOnly name (.map value)
  | filled {form : Form} (h : NeedsOnly name form) : NeedsOnly name (.filled form)
  | part {fields : List (String × Form)} {needed : List String}
    (hneeded : ∀ other ∈ needed, other = name) (h : ∀ field ∈ fields, NeedsOnly name field.2) :
    NeedsOnly name (.part fields needed)
  | nullable {form : Form} (h : NeedsOnly name form) : NeedsOnly name (.nullable form)

theorem needsOnly_row : row.NeedsOnly "set" := .filled (.map .scalar)

theorem needsOnly_update : update.NeedsOnly "set" := by
  refine .part (fun other h => List.mem_singleton.mp h) ?_
  exact List.forall_mem_cons.mpr ⟨needsOnly_row, List.forall_mem_singleton.mpr (.map .scalar)⟩

theorem needsOnly_schema : schema.NeedsOnly "set" :=
  .part (fun _ h => nomatch h) (List.forall_mem_cons.mpr ⟨.map .text,
    List.forall_mem_singleton.mpr (.list .text)⟩)

theorem needsOnly_changes : changes.NeedsOnly "set" := by
  refine .part (fun _ h => nomatch h) (List.forall_mem_cons.mpr ⟨.map (.list needsOnly_row), ?_⟩)
  exact List.forall_mem_cons.mpr ⟨.map (.list needsOnly_update),
    List.forall_mem_singleton.mpr (.map (.list needsOnly_row))⟩

/-- No field of a document is needed but the columns that an update changes. -/
theorem needsOnly_document : document.NeedsOnly "set" :=
  .part (fun _ h => nomatch h) (List.forall_mem_cons.mpr ⟨.nullable needsOnly_schema,
    List.forall_mem_singleton.mpr (.nullable needsOnly_changes)⟩)

end Form

end Shape

/-- Whether names and numbers of items lead from a value to another one inside it. -/
inductive Value.Leads : Value → Shape.Location → Value → Prop
  | here (v : Value) : Leads v [] v
  | item {vs : List Value} {i : Nat} {v w : Value} {l : Shape.Location} (hv : vs[i]? = some v)
    (h : Leads v l w) : Leads (.list vs) (Decimal.digits i :: l) w
  | field {fs : List (Text × Value)} {f : Text × Value} {w : Value} {l : Shape.Location}
    (hf : f ∈ fs) (h : Leads f.2 l w) : Leads (.object fs) (f.1 :: l) w

namespace Shape

/-- Whether a problem is at a place inside a value: at what is there, with the kind of scalar that
it is not, or at a field `set` that is missing. -/
inductive IsInside (v : Value) : Location → Defect → Prop
  | at {l : Location} {w : Value} {d : Defect} (h : v.Leads l w) : IsInside v l d
  | kind {l : Location} {w : Value} {kind : String × Defect} (h : v.Leads l w)
    (hw : w.isScalar = false) (hkind : kind ∈ Form.scalarKinds) :
    IsInside v (l ++ [kind.1.toList]) kind.2
  | missingSet {l : Location} {fs : List (Text × Value)} (h : v.Leads l (.object fs))
    (hset : "set".toList ∉ fs.map Prod.fst) : IsInside v (l ++ ["set".toList]) .missing

theorem IsInside.under {v w : Value} {name : Text} {l : Location} {d : Defect}
    (h : IsInside w l d)
    (hw : ∀ {l' : Location} {x : Value}, w.Leads l' x → v.Leads (name :: l') x) :
    IsInside v (name :: l) d := by
  cases h with
  | «at» h => exact .at (hw h)
  | kind h hx hkind => exact .kind (hw h) hx hkind
  | missingSet h hset => exact .missingSet (hw h) hset

/-- A form is broken inside the value. -/
theorem Form.Breaks.isInside {form : Form} {v : Value} {l : Location} {d : Defect}
    (h : form.Breaks v l d) (hset : form.NeedsOnly "set") : IsInside v l d := by
  induction h with
  | notAText h => exact .at (.here _)
  | notAScalar h hkind => exact .kind (.here _) h hkind
  | notAList h => exact .at (.here _)
  | item hv _ ih =>
    cases hset with
    | list hset => exact (ih hset).under fun h => .item hv h
  | notAMap h => exact .at (.here _)
  | value hf _ ih =>
    cases hset with
    | map hset => exact (ih hset).under fun h => .field hf h
  | tooShort => exact .at (.here _)
  | filled _ ih =>
    cases hset with
    | filled hset => exact ih hset
  | notAnObject h => exact .at (.here _)
  | unknownField hf h => exact .at (.field hf (.here _))
  | missing hname h =>
    cases hset with
    | part hneeded _ =>
      obtain rfl := hneeded _ hname
      exact .missingSet (.here _) h
  | field hfield hv _ ih =>
    cases hset with
    | part _ hfields => exact (ih (hfields _ hfield)).under fun h => .field hv h
  | present hv _ ih =>
    cases hset with
    | nullable hset => exact ih hset

/-! ## What a document holds -/

namespace Holds

variable {α : Type}

/-- Whether the items of a list are these, in order. -/
def listOf (R : Value → α → Prop) (v : Value) (as : List α) : Prop :=
  ∃ vs, v = .list vs ∧ List.Forall₂ R vs as

/-- Whether an object has the entries of a map, in order. -/
def mapOf (R : Value → α → Prop) (v : Value) (m : OrderedMap α) : Prop :=
  ∃ fs, v = .object fs ∧ List.Forall₂ (fun f e => f.1 = e.1 ∧ R f.2 e.2) fs m.entries

/-- Whether a field is this, or absent and this is the default. -/
def field (name : String) (default : α) (R : Value → α → Prop) (fs : List (Text × Value)) (a : α) :
    Prop :=
  match fs.lookup name.toList with
  | none => a = default
  | some v => R v a

/-- Whether a value is null and there is nothing, or is what there is. -/
def nullable (R : Value → α → Prop) (v : Value) (a? : Option α) : Prop :=
  v = .null ∧ a? = none ∨ ∃ a, a? = some a ∧ R v a

/-- Whether a text is this one. -/
def text (v : Value) (t : Text) : Prop := v = .text t

/-- Whether an object is this row, with the same values. -/
def row : Value → Row → Prop := mapOf (· = ·)

/-- Whether an object is this change of rows. -/
def update (v : Value) (u : Update) : Prop :=
  ∃ fs w, v = .object fs ∧ fs.lookup "set".toList = some w ∧ row w u.assignments ∧
    field "where" .empty row fs u.conditions

/-- Whether an object is this shape of tables. -/
def schema (v : Value) (s : Schema) : Prop :=
  ∃ fs, v = .object fs ∧ field "tables" .empty (mapOf text) fs s.tables ∧
    field "otherSQL" [] (listOf text) fs s.otherSql

/-- Whether an object is these changes of rows. -/
def changes (v : Value) (c : Changes) : Prop :=
  ∃ fs, v = .object fs ∧ field "inserts" .empty (mapOf (listOf row)) fs c.inserts ∧
    field "updates" .empty (mapOf (listOf update)) fs c.updates ∧
    field "deletes" .empty (mapOf (listOf row)) fs c.deletes

/-- Whether an object is this document. -/
def document (v : Value) (d : Document) : Prop :=
  ∃ fs, v = .object fs ∧ field "structure" none (nullable schema) fs d.schema? ∧
    field "data" none (nullable changes) fs d.changes?

end Holds
end Shape
end SqlInterchange
