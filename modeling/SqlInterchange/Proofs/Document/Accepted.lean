import SqlInterchange.Document.Parse
import SqlInterchange.Proofs.Except
import SqlInterchange.Proofs.OrderedMap

/-! # Accepted documents

A document is accepted when it was taken from a value, from JSON text or from bytes; the shape of
such a document has been checked.  This module reads off the checks what they leave behind: each
row of an accepted document has a column, each update changes one, and all their values are
scalars (`Accepted.wellFormed`).
-/
namespace SqlInterchange

/-! ## What a check leaves behind -/

/-- Whether a row has a column, and scalars only. -/
def Document.IsFilled (row : Row) : Prop := row.entries ≠ [] ∧ ∀ e ∈ row.entries, e.2.isScalar

/-- What the checks say of changes: rows have a column, updates change one, values are scalars. -/
structure Changes.WellFormed (c : Changes) : Prop where
  inserts : ∀ e ∈ c.inserts.entries, ∀ row ∈ e.2, Document.IsFilled row
  assignments : ∀ e ∈ c.updates.entries, ∀ u ∈ e.2, Document.IsFilled u.assignments
  conditions : ∀ e ∈ c.updates.entries, ∀ u ∈ e.2, ∀ f ∈ u.conditions.entries, f.2.isScalar
  deletes : ∀ e ∈ c.deletes.entries, ∀ row ∈ e.2, Document.IsFilled row

namespace Shape

variable {α β γ : Type}

theorem both_eq_ok {f : α → β → γ} {x : Checked α} {y : Checked β} {c : γ}
    (h : both f x y = .ok c) : ∃ a b, x = .ok a ∧ y = .ok b ∧ f a b = c := by
  match x, y, h with
  | .ok a, .ok b, h => exact ⟨a, b, rfl, rfl, Except.ok.inj h⟩

theorem each_eq_ok {check : α → Checked β} {as : List α} {bs : List β}
    (h : each check as = .ok bs) : ∀ b ∈ bs, ∃ a ∈ as, check a = .ok b := by
  induction as generalizing bs with
  | nil =>
    cases h
    simp
  | cons a as ih =>
    obtain ⟨b, bs, hb, hbs, rfl⟩ := both_eq_ok h
    intro b' hb'
    rcases List.mem_cons.mp hb' with rfl | hb'
    · exact ⟨a, List.mem_cons_self .., hb⟩
    · obtain ⟨a', ha', h'⟩ := ih hbs b' hb'
      exact ⟨a', List.mem_cons_of_mem _ ha', h'⟩

/-- Whether all that a check lets through satisfies `P`. -/
def Ensures (check : Location → Value → Checked α) (P : α → Prop) : Prop :=
  ∀ location v a, check location v = .ok a → P a

theorem ensures_scalar : Ensures scalar fun v => v.isScalar := by
  intro location v a h
  rw [scalar] at h
  split at h
  · next hv => exact Except.ok.inj h ▸ hv
  · cases h

namespace Ensures

variable {check : Location → Value → Checked α} {P : α → Prop}

theorem list (h : Ensures check P) : Ensures (list check) fun as => ∀ a ∈ as, P a := by
  intro location v as has a ha
  match v, has with
  | .list items, has =>
    obtain ⟨item, -, hitem⟩ := each_eq_ok has a ha
    exact h _ _ _ hitem

theorem map (h : Ensures check P) : Ensures (map check) fun m => ∀ e ∈ m.entries, P e.2 := by
  intro location v m hm e he
  match v, hm with
  | .object fields, hm =>
    obtain ⟨es, hes, rfl⟩ := exists_of_map_eq_ok hm
    obtain ⟨_, -, hitem⟩ := each_eq_ok hes e (OrderedMap.mem_of_mem_ofList he)
    obtain ⟨a, ha, rfl⟩ := exists_of_map_eq_ok hitem
    exact h _ _ _ ha

theorem optional (h : Ensures check P) {name : String} {default : α} (hdefault : P default)
    {location : Location} {fs : List (Text × Value)} {a : α}
    (ha : optional name default check location fs = .ok a) : P a := by
  rw [Shape.optional] at ha
  split at ha
  · exact Except.ok.inj ha ▸ hdefault
  · exact h _ _ _ ha

theorem part {known : List String} {fields : Location → List (Text × Value) → Checked α}
    (h : ∀ location fs a, fields location fs = .ok a → P a) : Ensures (part known fields) P := by
  intro location v a ha
  match v, ha with
  | .object fs, ha =>
    obtain ⟨a, _, hfields, -, rfl⟩ := both_eq_ok ha
    exact h _ _ _ hfields

theorem nullable (h : Ensures check P) : Ensures (nullable check) fun a? => ∀ a ∈ a?, P a := by
  intro location v a? ha? a ha
  unfold Shape.nullable at ha?
  split at ha?
  · cases Except.ok.inj ha?
    cases ha
  · obtain ⟨a', ha', rfl⟩ := exists_of_map_eq_ok ha?
    cases ha
    exact h _ _ _ ha'

end Ensures

theorem ensures_row : Ensures row Document.IsFilled := by
  intro location v r h
  rw [row] at h
  cases hfields : fields location v with
  | error problems => simp [hfields, bind, Except.bind] at h
  | ok r' =>
    simp only [hfields, bind, Except.bind] at h
    split at h
    · cases h
    · next hr =>
      obtain rfl := Except.ok.inj h
      exact ⟨by simpa [OrderedMap.isEmpty] using hr, ensures_scalar.map _ _ _ hfields⟩

theorem ensures_update : Ensures update fun u =>
    Document.IsFilled u.assignments ∧ ∀ f ∈ u.conditions.entries, f.2.isScalar := by
  refine .part fun location fs u hu => ?_
  obtain ⟨assignments, conditions, hset, hwhere, rfl⟩ := both_eq_ok hu
  refine ⟨?_, ensures_scalar.map.optional (by simp [OrderedMap.empty]) hwhere⟩
  rw [required] at hset
  split at hset
  · cases hset
  · exact ensures_row _ _ _ hset

theorem ensures_changes : Ensures changes Changes.WellFormed := by
  refine .part fun location fs c hc => ?_
  obtain ⟨inserts, ⟨updates, deletes⟩, hinserts, hrest, rfl⟩ := both_eq_ok hc
  obtain ⟨updates, deletes, hupdates, hdeletes, he⟩ := both_eq_ok hrest
  cases he
  have hus := ensures_update.list.map.optional (by simp [OrderedMap.empty]) hupdates
  exact
    { inserts := ensures_row.list.map.optional (by simp [OrderedMap.empty]) hinserts
      assignments := fun e he u hu => (hus e he u hu).1
      conditions := fun e he u hu => (hus e he u hu).2
      deletes := ensures_row.list.map.optional (by simp [OrderedMap.empty]) hdeletes }

theorem wellFormed_of_document {v : Value} {d : Document} (h : document v = .ok d) :
    ∀ c ∈ d.changes?, c.WellFormed := by
  refine Ensures.part (P := fun d : Document => ∀ c ∈ d.changes?, c.WellFormed)
    (fun location fs d hd => ?_) _ _ _ h
  obtain ⟨schema?, changes?, -, hchanges, rfl⟩ := both_eq_ok hd
  exact ensures_changes.nullable.optional (by simp) hchanges

end Shape

namespace Document

/-- Whether a document was taken from a value, from JSON text or from bytes. -/
inductive Accepted (d : Document) : Prop
  | ofValue (v : Value) (h : parse (.value v) = .ok d)
  | ofBytes (bs : List UInt8) (h : parse (.bytes bs) = .ok d)

theorem wellFormed_of_ofValue {text? : Option Text} {v : Value} {d : Document}
    (h : ofValue text? v = .ok d) : ∀ c ∈ d.changes?, c.WellFormed := by
  match v, h with
  | .object fs, h =>
    unfold ofValue at h
    exact Shape.wellFormed_of_document (eq_ok_of_mapError h)

theorem wellFormed_of_ofText {t : Text} {d : Document} (h : ofText t = .ok d) :
    ∀ c ∈ d.changes?, c.WellFormed := by
  unfold ofText at h
  split at h
  · exact wellFormed_of_ofValue h
  · cases h
  · cases h

theorem wellFormed_of_ofBytes {bs : List UInt8} {d : Document} (h : ofBytes bs = .ok d) :
    ∀ c ∈ d.changes?, c.WellFormed := by
  unfold ofBytes at h
  split at h
  · exact wellFormed_of_ofText h
  · cases h

/-- **Main.** The changes of an accepted document are well-formed. -/
theorem Accepted.wellFormed {d : Document} (h : d.Accepted) : ∀ c ∈ d.changes?, c.WellFormed := by
  cases h with
  | ofBytes bs h => exact wellFormed_of_ofBytes h
  | ofValue v h =>
    -- a value that is text or bytes is read as JSON
    unfold parse at h
    split at h
    · contradiction
    · exact wellFormed_of_ofText h
    · exact wellFormed_of_ofBytes h
    · exact wellFormed_of_ofBytes h
    · exact wellFormed_of_ofValue h

end Document
end SqlInterchange
