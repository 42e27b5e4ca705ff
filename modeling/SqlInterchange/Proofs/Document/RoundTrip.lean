import SqlInterchange.Proofs.Document.Accepted
import SqlInterchange.Proofs.Json.RoundTrip
import SqlInterchange.Proofs.Text.Utf8

/-! # Documents come back from JSON

A document written as JSON is read as the document, from the text and from its bytes, in every
layout (`parse_toJson`).  The text holds a value that comes back (`Json.read_write`), and the
checks let through the value of a document and give the document: a check passes what is written
for each of its parts, and a section that is left out comes back as the empty one.
-/
namespace SqlInterchange

/-! ## What the checks let through -/

namespace Shape

variable {α β : Type}

/-- Whether a check lets a value through, wherever it stands, and finds `a` in it. -/
def Passes (check : Location → Value → Checked α) (v : Value) (a : α) : Prop :=
  ∀ location, check location v = .ok a

theorem both_ok {γ : Type} {g : α → β → γ} {x : Checked α} {y : Checked β} {a : α} {b : β}
    (hx : x = .ok a) (hy : y = .ok b) : both g x y = .ok (g a b) := by
  rw [hx, hy]
  rfl

theorem each_cons {check : α → Checked β} {a : α} {as : List α} {b : β} {bs : List β}
    (ha : check a = .ok b) (has : each check as = .ok bs) :
    each check (a :: as) = .ok (b :: bs) := both_ok ha has

theorem passes_text (t : Text) : Passes text (.text t) t := fun _ => rfl

theorem passes_scalar {v : Value} (h : v.isScalar) : Passes scalar v v := by
  intro location
  rw [scalar, if_pos h]

variable {check : Location → Value → Checked α} {f : α → Value}

theorem passes_list {as : List α} (h : ∀ a ∈ as, Passes check (f a) a) :
    Passes (list check) (.list (as.map f)) as := by
  intro location
  -- the places of the items are numbered, from whatever number on
  suffices hfrom : ∀ k, each (fun p => check (location ++ [Decimal.digits p.2]) p.1)
      ((as.map f).zipIdx k) = .ok as from hfrom 0
  induction as with
  | nil => exact fun k => rfl
  | cons a as ih =>
    intro k
    have hrest := ih (fun a' ha' => h a' (List.mem_cons_of_mem _ ha')) (k + 1)
    rw [List.map_cons, List.zipIdx_cons]
    exact each_cons (h a (List.mem_cons_self ..) _) hrest

theorem passes_map {m : OrderedMap α} (h : ∀ e ∈ m.entries, Passes check (f e.2) e.2) :
    Passes (map check) (Document.objectOf f m) m := by
  intro location
  have heach : ∀ es : List (Text × α), (∀ e ∈ es, Passes check (f e.2) e.2) →
      each (fun p => (check (location ++ [p.1]) p.2).map (p.1, ·))
        (es.map fun e => (e.1, f e.2)) = .ok es := by
    intro es hes
    induction es with
    | nil => rfl
    | cons e es ih =>
      have hrest := ih fun e' he' => hes e' (List.mem_cons_of_mem _ he')
      have hentry : (check (location ++ [e.1]) (f e.2)).map (e.1, ·) = .ok e := by
        rw [hes e (List.mem_cons_self ..)]
        rfl
      rw [List.map_cons]
      exact each_cons hentry hrest
  refine (congrArg (Except.map OrderedMap.ofList) (heach m.entries h)).trans ?_
  exact congrArg Except.ok (OrderedMap.ofList_entries m)

theorem passes_fields {r : Row} (h : ∀ e ∈ r.entries, e.2.isScalar) :
    Passes fields (Document.rowValue r) r := by
  have hvalue : Document.rowValue r = Document.objectOf id r := by
    simp [Document.rowValue, Document.objectOf, OrderedMap.map]
  rw [hvalue]
  exact passes_map fun e he => passes_scalar (h e he)

theorem passes_row {r : Row} (h : Document.IsFilled r) : Passes row (Document.rowValue r) r := by
  intro location
  have hfilled : r.isEmpty = false := by simpa [OrderedMap.isEmpty] using h.1
  rw [row, passes_fields h.2 location]
  simp [bind, Except.bind, hfilled]

theorem passes_rows {rows : List Row} (h : ∀ r ∈ rows, Document.IsFilled r) :
    Passes (list row) (Document.rowsValue rows) rows :=
  passes_list fun r hr => passes_row (h r hr)

/-- A part with fixed fields is let through if its fields are and no other name is there. -/
theorem passes_part {known : List String} {check : Location → List (Text × Value) → Checked α}
    {fs : List (Text × Value)} {a : α} (h : ∀ location, check location fs = .ok a)
    (hknown : ∀ f ∈ fs, f.1 ∈ known.map String.toList) :
    Passes (part known check) (.object fs) a := by
  intro location
  have hfields : onlyFields known location fs = .ok () := by
    have heach : each (fun f =>
        if (known.map String.toList).contains f.1 then .ok ()
        else reject (location ++ [f.1]) .unknownField) fs = .ok (fs.map fun _ => ()) := by
      clear h
      induction fs with
      | nil => rfl
      | cons f fs ih =>
        obtain ⟨hf, hfs⟩ := List.forall_mem_cons.mp hknown
        exact each_cons (if_pos (by simpa using hf)) (ih hfs)
    exact congrArg (Except.map fun _ => ()) heach
  exact both_ok (h location) hfields

theorem optional_of_lookup {name : String} {default a : α} {v : Value} {location : Location}
    {fs : List (Text × Value)} (hlookup : fs.lookup name.toList = some v)
    (h : Passes check v a) : optional name default check location fs = .ok a := by
  rw [optional, hlookup]
  exact h _

theorem optional_of_missing {name : String} {default : α} {location : Location}
    {fs : List (Text × Value)} (hlookup : fs.lookup name.toList = none) :
    optional name default check location fs = .ok default := by
  rw [optional, hlookup]

theorem required_of_lookup {name : String} {a : α} {v : Value} {location : Location}
    {fs : List (Text × Value)} (hlookup : fs.lookup name.toList = some v)
    (h : Passes check v a) : required name check location fs = .ok a := by
  rw [required, hlookup]
  exact h _

theorem passes_update {u : Update} (hset : Document.IsFilled u.assignments)
    (hwhere : ∀ f ∈ u.conditions.entries, f.2.isScalar) :
    Passes update (Document.updateValue u) u := by
  refine passes_part (fun location => ?_) (by simp)
  exact both_ok (required_of_lookup rfl (passes_row hset))
    (optional_of_lookup rfl (passes_fields hwhere))

theorem passes_schema (s : Schema) : Passes schema (Document.schemaValue s) s := by
  refine passes_part (fun location => ?_) (by simp)
  exact both_ok (optional_of_lookup rfl (passes_map fun e _ => passes_text e.2))
    (optional_of_lookup rfl (passes_list fun t _ => passes_text t))

/-- A section that is left out if it is empty comes back. -/
theorem optional_section {name : String} {m : OrderedMap α} {v : Value} {location : Location}
    {fs : List (Text × Value)}
    (hlookup : fs.lookup name.toList = if m.isEmpty then none else some v)
    (h : Passes (map check) v m) : optional name .empty (map check) location fs = .ok m := by
  by_cases hempty : m.isEmpty
  · rw [if_pos hempty] at hlookup
    have hm : m = .empty := OrderedMap.ext (List.isEmpty_iff.mp hempty)
    rw [optional_of_missing hlookup, hm]
  · rw [if_neg hempty] at hlookup
    exact optional_of_lookup hlookup h

theorem passes_updates {c : Changes} (h : c.WellFormed) : Passes (map (list update))
    (Document.objectOf (fun us => .list (us.map Document.updateValue)) c.updates) c.updates :=
  passes_map fun e he => passes_list fun u hu =>
    passes_update (h.assignments e he u hu) (h.conditions e he u hu)

theorem passes_changes {c : Changes} (h : c.WellFormed) :
    Passes changes (Document.changesValue c) c := by
  have hinserts : Passes (map (list row)) (Document.objectOf Document.rowsValue c.inserts)
      c.inserts := passes_map fun e he => passes_rows (h.inserts e he)
  have hdeletes : Passes (map (list row)) (Document.objectOf Document.rowsValue c.deletes)
      c.deletes := passes_map fun e he => passes_rows (h.deletes e he)
  refine passes_part (fun location => both_ok (optional_of_lookup rfl hinserts)
    (both_ok (optional_section ?_ (passes_updates h)) (optional_section ?_ hdeletes))) ?_
  · cases c.updates.isEmpty <;> cases c.deletes.isEmpty <;> rfl
  · cases c.updates.isEmpty <;> cases c.deletes.isEmpty <;> rfl
  · cases c.updates.isEmpty <;> cases c.deletes.isEmpty <;> simp

theorem passes_nullable {fs : List (Text × Value)} {a : α} (h : Passes check (.object fs) a) :
    Passes (nullable check) (.object fs) (some a) := fun location =>
  congrArg (Except.map some) (h location)

/-- The checks find a document in its value. -/
theorem document_toValue {d : Document} (h : ∀ c ∈ d.changes?, c.WellFormed) :
    document d.toValue = .ok d := by
  obtain ⟨schema?, changes?⟩ := d
  refine passes_part (fun location => both_ok (a := schema?) (b := changes?) ?_ ?_) ?_ []
  · cases schema? with
    | none => cases changes? <;> exact optional_of_missing rfl
    | some s => exact optional_of_lookup rfl (passes_nullable (passes_schema s))
  · cases changes? with
    | none => cases schema? <;> exact optional_of_missing rfl
    | some c =>
      cases schema? <;> exact optional_of_lookup rfl (passes_nullable (passes_changes (h c rfl)))
  · cases schema? <;> cases changes? <;> simp

end Shape

/-! ## The value of a document comes back -/

/-- The values in the rows of changes. -/
def Changes.cells (c : Changes) : List Value :=
  c.inserts.values.flatten.flatMap OrderedMap.values ++
    c.updates.values.flatten.flatMap (fun u => u.assignments.values ++ u.conditions.values) ++
    c.deletes.values.flatten.flatMap OrderedMap.values

namespace Document

/-- The values in the rows of a document. -/
def cells (d : Document) : List Value := d.changes?.elim [] Changes.cells

open Json (Writable)

theorem writable_of_isScalar {v : Value} (h : v.isScalar)
    (hint : ∀ n, v = .int n → (Decimal.digits n.natAbs).length ≤ Json.maxDigits) : Writable v := by
  cases v with
  | null => exact .null
  | bool b => exact .bool b
  | int n => exact .int n (hint n rfl)
  | float x => exact .float x
  | text t => exact .text t
  | bytes bs => cases h
  | absent => cases h
  | list items => cases h
  | object fields => cases h

theorem writable_objectOf {α : Type} {f : α → Value} {m : OrderedMap α}
    (h : ∀ e ∈ m.entries, Writable (f e.2)) : Writable (objectOf f m) := by
  refine .object _ (m.map f).nodup fun e he => ?_
  obtain ⟨e', he', rfl⟩ := List.mem_map.mp he
  exact h e' he'

theorem writable_list {α : Type} {f : α → Value} {as : List α} (h : ∀ a ∈ as, Writable (f a)) :
    Writable (.list (as.map f)) := by
  refine .list _ fun v hv => ?_
  obtain ⟨a, ha, rfl⟩ := List.mem_map.mp hv
  exact h a ha

section Cells

variable {c : Changes} {row : Row} {f : Text × Value}

theorem mem_cells_of_inserts {e : Text × List Row} (he : e ∈ c.inserts.entries) (hrow : row ∈ e.2)
    (hf : f ∈ row.entries) : f.2 ∈ c.cells := by
  simp only [Changes.cells, OrderedMap.values, List.mem_append, List.mem_flatMap, List.mem_flatten]
  exact .inl (.inl ⟨row, ⟨e.2, List.mem_map_of_mem he, hrow⟩, List.mem_map_of_mem hf⟩)

theorem mem_cells_of_deletes {e : Text × List Row} (he : e ∈ c.deletes.entries) (hrow : row ∈ e.2)
    (hf : f ∈ row.entries) : f.2 ∈ c.cells := by
  simp only [Changes.cells, OrderedMap.values, List.mem_append, List.mem_flatMap, List.mem_flatten]
  exact .inr ⟨row, ⟨e.2, List.mem_map_of_mem he, hrow⟩, List.mem_map_of_mem hf⟩

theorem mem_cells_of_updates {e : Text × List Update} {u : Update} (he : e ∈ c.updates.entries)
    (hu : u ∈ e.2) (hf : f ∈ u.assignments.entries ∨ f ∈ u.conditions.entries) :
    f.2 ∈ c.cells := by
  simp only [Changes.cells, OrderedMap.values, List.mem_append, List.mem_flatMap, List.mem_flatten]
  exact .inl (.inr ⟨u, ⟨e.2, List.mem_map_of_mem he, hu⟩,
    hf.imp List.mem_map_of_mem List.mem_map_of_mem⟩)

end Cells

theorem writable_rowValue {r : Row} (h : ∀ f ∈ r.entries, Writable f.2) :
    Writable (rowValue r) := .object _ r.nodup h

theorem writable_updateValue {u : Update} (hset : ∀ f ∈ u.assignments.entries, Writable f.2)
    (hwhere : ∀ f ∈ u.conditions.entries, Writable f.2) : Writable (updateValue u) := by
  refine .object _ (by simp) fun f hf => ?_
  rcases List.mem_cons.mp hf with rfl | hf
  · exact writable_rowValue hset
  · rw [List.mem_singleton.mp hf]
    exact writable_rowValue hwhere

theorem writable_schemaValue (s : Schema) : Writable (schemaValue s) := by
  refine .object _ (by simp) fun f hf => ?_
  rcases List.mem_cons.mp hf with rfl | hf
  · exact writable_objectOf fun e _ => .text e.2
  · rw [List.mem_singleton.mp hf]
    exact writable_list fun t _ => .text t

theorem writable_changesValue {c : Changes} (h : c.WellFormed)
    (hints : ∀ n, .int n ∈ c.cells → (Decimal.digits n.natAbs).length ≤ Json.maxDigits) :
    Writable (changesValue c) := by
  have hcell {v : Value} (hv : v ∈ c.cells) (hscalar : v.isScalar) : Writable v :=
    writable_of_isScalar hscalar fun n hn => hints n (hn ▸ hv)
  have hinserts : Writable (objectOf rowsValue c.inserts) :=
    writable_objectOf fun e he => writable_list fun row hrow => writable_rowValue fun f hf =>
      hcell (mem_cells_of_inserts he hrow hf) ((h.inserts e he row hrow).2 f hf)
  have hupdates : Writable (objectOf (fun us => .list (us.map updateValue)) c.updates) :=
    writable_objectOf fun e he => writable_list fun u hu => writable_updateValue
      (fun f hf => hcell (mem_cells_of_updates he hu (.inl hf)) ((h.assignments e he u hu).2 f hf))
      (fun f hf => hcell (mem_cells_of_updates he hu (.inr hf)) (h.conditions e he u hu f hf))
  have hdeletes : Writable (objectOf rowsValue c.deletes) :=
    writable_objectOf fun e he => writable_list fun row hrow => writable_rowValue fun f hf =>
      hcell (mem_cells_of_deletes he hrow hf) ((h.deletes e he row hrow).2 f hf)
  refine .object _ ?_ fun f hf => ?_
  · cases c.updates.isEmpty <;> cases c.deletes.isEmpty <;> simp
  · rcases List.mem_append.mp hf with hf | hf
    · rcases List.mem_cons.mp hf with rfl | hf
      · exact hinserts
      · split at hf
        · cases hf
        · rw [List.mem_singleton.mp hf]
          exact hupdates
    · split at hf
      · cases hf
      · rw [List.mem_singleton.mp hf]
        exact hdeletes

/-- The value of a document comes back from JSON. -/
theorem writable_toValue {d : Document} (h : ∀ c ∈ d.changes?, c.WellFormed)
    (hints : ∀ n, .int n ∈ d.cells → (Decimal.digits n.natAbs).length ≤ Json.maxDigits) :
    Writable d.toValue := by
  obtain ⟨schema?, changes?⟩ := d
  refine .object _ ?_ fun f hf => ?_
  · cases schema? <;> cases changes? <;> simp
  · rcases List.mem_append.mp hf with hf | hf
    · obtain ⟨s, -, rfl⟩ := Option.map_eq_some_iff.mp (Option.mem_toList.mp hf)
      exact writable_schemaValue s
    · obtain ⟨c, hc, rfl⟩ := Option.map_eq_some_iff.mp (Option.mem_toList.mp hf)
      obtain rfl : changes? = some c := hc
      exact writable_changesValue (h c rfl) hints

theorem ofText_toJson {d : Document} (h : ∀ c ∈ d.changes?, c.WellFormed)
    (hints : ∀ n, .int n ∈ d.cells → (Decimal.digits n.natAbs).length ≤ Json.maxDigits)
    (indent : Json.Indent) : ofText (d.toJson indent) = .ok d := by
  have hread := Json.read_write (writable_toValue h hints) indent
  have hvalue : ofValue (some (d.toJson indent)) d.toValue = .ok d := by
    show (Shape.document d.toValue).mapError _ = .ok d
    rw [Shape.document_toValue h]
    rfl
  rw [ofText, toJson, hread]
  exact hvalue

end Document

/-- Whether what a source holds is checked, now or before: a document is taken as it is, so it must
have the shape of one already.  Otherwise it need not come back, as a row without columns is
written and then refused. -/
def Source.IsChecked : Source → Prop
  | .document d => ∀ c ∈ d.changes?, c.WellFormed
  | .value _ | .bytes _ => True

namespace Document

theorem wellFormed_of_parse {source : Source} {d : Document} (h : parse source = .ok d)
    (hchecked : source.IsChecked) : ∀ c ∈ d.changes?, c.WellFormed := by
  cases source with
  | document d' => exact Except.ok.inj h ▸ hchecked
  | value v => exact (Accepted.ofValue v h).wellFormed
  | bytes bs => exact (Accepted.ofBytes bs h).wellFormed

/-- **Main: documents come back from JSON.**  Whatever a document was taken from, it is read again
from its JSON, given as text or as the bytes of the text and in every layout, if its integers have
no more digits than are read: with the same tables, statements, rows and fields in the same order,
the same scalars, and the same halves missing.  Written once more, it gives the same text. -/
theorem parse_toJson {source : Source} {d : Document} (h : parse source = .ok d)
    (hchecked : source.IsChecked)
    (hints : ∀ n, .int n ∈ d.cells → (Decimal.digits n.natAbs).length ≤ Json.maxDigits)
    (indent : Json.Indent) :
    parse (.value (.text (d.toJson indent))) = .ok d ∧
      parse (.bytes (Utf8.encode (d.toJson indent))) = .ok d ∧
      ∀ d', parse (.value (.text (d.toJson indent))) = .ok d' →
        d'.toJson indent = d.toJson indent := by
  have htext : ofText (d.toJson indent) = .ok d :=
    ofText_toJson (wellFormed_of_parse h hchecked) hints indent
  refine ⟨htext, ?_, ?_⟩
  · show ofBytes (Utf8.encode (d.toJson indent)) = .ok d
    rw [ofBytes, Utf8.decode_encode]
    exact htext
  · intro d' hd'
    have heq : d' = d := Except.ok.inj (hd'.symm.trans htext)
    rw [heq]

/-! ### Every kind of scalar -/

/-- A document with every kind of scalar, and a text of characters that are escaped. -/
def assorted : Document :=
  { schema? := some
      { tables := .ofList [("t".toList, "(a)".toList)]
        otherSql := [] }
    changes? := some
      { inserts := .ofList
          [("t".toList,
            [.ofList
              [("a".toList, .null), ("b".toList, .bool true), ("c".toList, .int (-7)),
                ("d".toList, .float (.finite true ⟨0x3FB999999999999A, by decide⟩)),
                ("e".toList, .float .nan),
                ("f".toList, .text ['\x22', '\n', '\u00e9', '\ud7ff', Char.ofNat 0x1F600])]])]
        updates := .empty
        deletes := .empty } }

theorem assorted_comes_back :
    parse (.value assorted.toValue) = .ok assorted ∧
      parse (.value (.text (assorted.toJson (some 2)))) = .ok assorted ∧
      parse (.bytes (Utf8.encode (assorted.toJson (some 2)))) = .ok assorted ∧
      ∀ d, parse (.value (.text (assorted.toJson (some 2)))) = .ok d →
        d.toJson (some 2) = assorted.toJson (some 2) := by
  have haccepted : parse (.value assorted.toValue) = .ok assorted := rfl
  refine ⟨haccepted, parse_toJson haccepted trivial ?_ (some 2)⟩
  intro n hn
  have hseven : n = -7 := by
    simpa [assorted, cells, Changes.cells, OrderedMap.values, OrderedMap.ofList, OrderedMap.insert,
      OrderedMap.write, OrderedMap.empty] using hn
  rw [hseven, Decimal.digits_of_lt (by decide)]
  decide

end Document
end SqlInterchange
