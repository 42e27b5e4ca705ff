import SqlInterchange.Proofs.Document.Accepted
import SqlInterchange.Proofs.Document.Form

/-! # The checks judge by the form

Each check of a part of a document judges the values of a form (`Judges`): what it finds in a
value is what the value holds, and its problems are the places where the value breaks the form, all
of them and no others.  Checks side by side have the problems of both, so the checks of a document
judge by the form of documents (`judges_document`).

As a value that breaks a form nowhere fits it, the values that are taken as documents are those
that fit (`parse_decoded`), and a refusal tells every place that keeps a value from fitting.
-/
namespace SqlInterchange
namespace Shape

variable {α β γ : Type}

/-! ## The problems of checks -/

/-- What a check finds wrong. -/
def problems : Checked α → List Problem
  | .ok _ => []
  | .error ps => ps

theorem problems_both (f : α → β → γ) (x : Checked α) (y : Checked β) :
    problems (both f x y) = problems x ++ problems y := by
  cases x <;> cases y <;> simp [both, problems]

theorem problems_map (f : α → β) (x : Checked α) : problems (x.map f) = problems x := by
  cases x <;> rfl

/-- Whether a check tells what is wrong under a location: it says why it fails, and its problems
are these. -/
structure Tells (x : Checked α) (location : Location) (B : Location → Defect → Prop) : Prop where
  complains : x ≠ .error []
  mem_problems : ∀ p, p ∈ problems x ↔ ∃ l, p.location = location ++ l ∧ B l p.defect

namespace Tells

variable {location : Location} {B C : Location → Defect → Prop} {x : Checked α} {y : Checked β}

theorem of_ok (a : α) (h : ∀ l d, ¬B l d) : Tells (.ok a) location B where
  complains := nofun
  mem_problems p := by
    refine ⟨nofun, ?_⟩
    rintro ⟨l, -, hbreaks⟩
    exact absurd hbreaks (h l _)

theorem of_reject {place tail : Location} {defect : Defect} (hplace : place = location ++ tail)
    (h : ∀ l d, B l d ↔ l = tail ∧ d = defect) :
    Tells (reject place defect : Checked α) location B where
  complains := by simp [reject]
  mem_problems := by
    rintro ⟨at', d⟩
    have hmem : (⟨at', d⟩ : Problem) ∈ problems (reject place defect : Checked α) ↔
        at' = place ∧ d = defect := by simp [problems, reject]
    rw [hmem]
    constructor
    · rintro ⟨rfl, hd⟩
      exact ⟨tail, hplace, (h _ _).mpr ⟨rfl, hd⟩⟩
    · rintro ⟨l, hat, hbreaks⟩
      obtain ⟨rfl, hd⟩ := (h _ _).mp hbreaks
      exact ⟨hat.trans hplace.symm, hd⟩

/-- A check that rejects a value tells of it if nothing else is wrong. -/
theorem of_rejected {defect : Defect} (hx : x = reject location defect) (hdefect : B [] defect)
    (honly : ∀ l d, B l d → l = [] ∧ d = defect) : Tells x location B := by
  rw [hx]
  refine of_reject (List.append_nil _).symm fun l d => ⟨honly l d, ?_⟩
  rintro ⟨rfl, rfl⟩
  exact hdefect

/-- Where a check finds something, nothing is wrong. -/
theorem unbroken {a : α} (h : Tells (.ok a) location B) (l : Location) (d : Defect) : ¬B l d := by
  intro hbreaks
  have hmem := (h.mem_problems ⟨location ++ l, d⟩).mpr ⟨l, rfl, hbreaks⟩
  cases hmem

theorem congr (h : Tells x location B) (hB : ∀ l d, B l d ↔ C l d) : Tells x location C where
  complains := h.complains
  mem_problems p := by simp only [h.mem_problems, hB]

theorem map (h : Tells x location B) (f : α → β) : Tells (x.map f) location B where
  complains := by
    cases x with
    | ok a => exact nofun
    | error ps => simpa [Except.map] using h.complains
  mem_problems p := by rw [problems_map, h.mem_problems]

theorem both (hx : Tells x location B) (hy : Tells y location C) (f : α → β → γ) :
    Tells (both f x y) location fun l d => B l d ∨ C l d where
  complains := by
    cases x with
    | ok a =>
      cases y with
      | ok b => exact nofun
      | error qs => simpa [Shape.both] using hy.complains
    | error ps =>
      cases y with
      | ok b => simpa [Shape.both] using hx.complains
      | error qs =>
        intro h
        have happend : ps ++ qs = [] := Except.error.inj h
        exact hx.complains (congrArg Except.error (List.append_eq_nil_iff.mp happend).1)
  mem_problems p := by
    rw [problems_both, List.mem_append, hx.mem_problems, hy.mem_problems, ← exists_or]
    simp only [← and_or_left]

/-- Checks of the items of a list tell what is wrong with each. -/
theorem each {check : α → Checked β} {D : α → Location → Defect → Prop} {as : List α}
    (h : ∀ a ∈ as, Tells (check a) location (D a)) :
    Tells (each check as) location fun l d => ∃ a ∈ as, D a l d := by
  induction as with
  | nil => exact of_ok _ (by simp)
  | cons a as ih =>
    obtain ⟨ha, has⟩ := List.forall_mem_cons.mp h
    exact (ha.both (ih has) List.cons).congr fun l d => by simp

/-- What is told under a name is told of that name. -/
theorem under {name : Text} (h : Tells x (location ++ [name]) B) :
    Tells x location fun l d => ∃ l', l = name :: l' ∧ B l' d where
  complains := h.complains
  mem_problems p := by
    rw [h.mem_problems]
    constructor
    · rintro ⟨l, hat, hbreaks⟩
      exact ⟨name :: l, by rw [hat, List.append_assoc, List.singleton_append], l, rfl, hbreaks⟩
    · rintro ⟨_, hat, l, rfl, hbreaks⟩
      exact ⟨l, by rw [hat, List.append_assoc, List.singleton_append], hbreaks⟩

end Tells

/-- What checks of the items of a list find is found in these items, one in each. -/
theorem forall₂_of_each {check : α → Checked β} {R : α → β → Prop} {as : List α} {bs : List β}
    (h : ∀ a ∈ as, ∀ b, check a = .ok b → R a b) (heach : each check as = .ok bs) :
    List.Forall₂ R as bs := by
  induction as generalizing bs with
  | nil =>
    cases heach
    exact .nil
  | cons a as ih =>
    obtain ⟨ha, has⟩ := List.forall_mem_cons.mp h
    obtain ⟨b, bs, hb, hbs, rfl⟩ := both_eq_ok heach
    exact .cons (ha b hb) (ih has hbs)

/-! ## Checks that judge by a form -/

/-- Whether a check judges the values of a form. -/
structure Judges (form : Form) (R : Value → α → Prop)
    (check : Location → Value → Checked α) : Prop where
  /-- What it finds in a value is what the value holds. -/
  holds : ∀ {location v a}, v.IsDecoded → check location v = .ok a → R v a
  /-- It tells where the value breaks the form. -/
  tells : ∀ {location v}, v.IsDecoded → Tells (check location v) location (form.Breaks v)

/-- Where fields are not what is asked of them: one that is needed is missing, or a value breaks
the form of its field. -/
inductive FieldsBreak (fields : List (String × Form)) (needed : List String)
    (fs : List (Text × Value)) : Location → Defect → Prop
  | missing {name : String} (hname : name ∈ needed) (h : name.toList ∉ fs.map Prod.fst) :
    FieldsBreak fields needed fs [name.toList] .missing
  | field {field : String × Form} {v : Value} {l : Location} {d : Defect} (hfield : field ∈ fields)
    (hv : (field.1.toList, v) ∈ fs) (h : field.2.Breaks v l d) :
    FieldsBreak fields needed fs (field.1.toList :: l) d

/-- Whether a check judges fields by their forms; other fields are none of its business. -/
structure JudgesFields (fields : List (String × Form)) (needed : List String)
    (R : List (Text × Value) → α → Prop)
    (check : Location → List (Text × Value) → Checked α) : Prop where
  /-- What it finds in the fields is what they hold. -/
  holds : ∀ {location fs a}, (Value.object fs).IsDecoded → check location fs = .ok a → R fs a
  /-- It tells where the fields are not what is asked of them. -/
  tells : ∀ {location fs}, (Value.object fs).IsDecoded →
    Tells (check location fs) location (FieldsBreak fields needed fs)

theorem judges_text : Judges .text Holds.text text where
  holds {location v t} _ h := by
    cases v with
    | text t' => exact congrArg Value.text (Except.ok.inj h)
    | _ => cases h
  tells {location v} _ := by
    by_cases hv : ∃ t, v = .text t
    · obtain ⟨t, rfl⟩ := hv
      exact .of_ok t fun l d => fun | .notAText h => h t rfl
    · have hreject : text location v = reject location .notAText := by
        cases v with
        | text t => exact absurd ⟨t, rfl⟩ hv
        | _ => rfl
      refine .of_rejected hreject (.notAText fun t ht => hv ⟨t, ht⟩) fun l d hbreaks => ?_
      cases hbreaks with
      | notAText _ => exact ⟨rfl, rfl⟩

theorem judges_scalar : Judges .scalar (fun v w => v = w) scalar where
  holds {location v w} _ h := by
    rw [scalar] at h
    split at h
    · exact Except.ok.inj h
    · cases h
  tells {location v} _ := by
    rw [scalar]
    split
    · next hv =>
      refine .of_ok v fun l d hbreaks => ?_
      cases hbreaks with
      | notAScalar h _ => simp [hv] at h
    · next hv =>
      constructor
      · intro hempty
        cases hempty
      · rintro ⟨place, d⟩
        have hmem : (⟨place, d⟩ : Problem) ∈ Form.scalarKinds.map (fun kind =>
            (⟨location ++ [kind.1.toList], kind.2⟩ : Problem)) ↔
              ∃ l, place = location ++ l ∧ Form.scalar.Breaks v l d := by
          rw [List.mem_map]
          constructor
          · rintro ⟨kind, hkind, heq⟩
            cases heq
            exact ⟨_, rfl, .notAScalar (by simpa using hv) hkind⟩
          · rintro ⟨_, rfl, hbreaks⟩
            cases hbreaks with
            | notAScalar _ hkind => exact ⟨_, hkind, rfl⟩
        exact hmem

variable {form : Form} {R R' : Value → α → Prop} {check : Location → Value → Checked α}

/-- What a value holds may be said with less. -/
theorem Judges.imp (h : Judges form R check) (himp : ∀ v a, R v a → R' v a) :
    Judges form R' check where
  holds hv ha := himp _ _ (h.holds hv ha)
  tells hv := h.tells hv

theorem Judges.list (h : Judges form R check) :
    Judges (.list form) (Holds.listOf R) (list check) where
  holds {location v as} hv has := by
    match v, hv, has with
    | .list vs, .list hvs, has =>
      refine ⟨vs, rfl, ?_⟩
      rw [← List.zipIdx_map_fst 0 vs, List.forall₂_map_left_iff]
      refine forall₂_of_each (fun f hf a ha => h.holds ?_ ha) has
      exact hvs _ (List.fst_mem_of_mem_zipIdx hf)
  tells {location v} hv := by
    by_cases hlist : ∃ vs, v = .list vs
    · obtain ⟨vs, rfl⟩ := hlist
      cases hv with
      | list hvs =>
        have hitem : ∀ f ∈ vs.zipIdx, Tells (check (location ++ [Decimal.digits f.2]) f.1) location
            fun l d => ∃ l', l = Decimal.digits f.2 :: l' ∧ form.Breaks f.1 l' d :=
          fun f hf => (h.tells (hvs f.1 (List.fst_mem_of_mem_zipIdx hf))).under
        refine (Tells.each hitem).congr fun l d => ⟨?_, ?_⟩
        · rintro ⟨⟨w, i⟩, hf, l, rfl, hbreaks⟩
          exact .item (List.mem_zipIdx_iff_getElem?.mp hf) hbreaks
        · intro hbreaks
          cases hbreaks with
          | notAList hv => exact absurd rfl (hv vs)
          | item hw hbreaks =>
            exact ⟨(_, _), List.mem_zipIdx_iff_getElem?.mpr hw, _, rfl, hbreaks⟩
    · have hreject : Shape.list check location v = reject location .notAList := by
        cases v with
        | list vs => exact absurd ⟨vs, rfl⟩ hlist
        | _ => rfl
      refine .of_rejected hreject (.notAList fun vs hvs => hlist ⟨vs, hvs⟩) fun l d hbreaks => ?_
      cases hbreaks with
      | notAList _ => exact ⟨rfl, rfl⟩
      | item _ _ => exact absurd ⟨_, rfl⟩ hlist

theorem Judges.map (h : Judges form R check) :
    Judges (.map form) (Holds.mapOf R) (map check) where
  holds {location v m} hv hm := by
    match v, hv, hm with
    | .object fs, .object hnodup hfs, hm =>
      obtain ⟨es, hes, rfl⟩ := exists_of_map_eq_ok hm
      have hentries : List.Forall₂ (fun f e => f.1 = e.1 ∧ R f.2 e.2) fs es := by
        refine forall₂_of_each (fun f hf e he => ?_) hes
        obtain ⟨a, ha, rfl⟩ := exists_of_map_eq_ok he
        exact ⟨rfl, h.holds (hfs f hf) ha⟩
      have hnames : fs.map Prod.fst = es.map Prod.fst := by
        rw [← List.forall₂_eq_eq_eq, List.forall₂_map_left_iff, List.forall₂_map_right_iff]
        exact hentries.imp fun _ _ h => h.1
      refine ⟨fs, rfl, ?_⟩
      rw [OrderedMap.entries_ofList (hnames ▸ hnodup)]
      exact hentries
  tells {location v} hv := by
    by_cases hobject : ∃ fs, v = .object fs
    · obtain ⟨fs, rfl⟩ := hobject
      cases hv with
      | object hnodup hfs =>
        have hentry : ∀ f ∈ fs, Tells ((check (location ++ [f.1]) f.2).map (f.1, ·)) location
            fun l d => ∃ l', l = f.1 :: l' ∧ form.Breaks f.2 l' d :=
          fun f hf => (h.tells (hfs f hf)).under.map _
        refine ((Tells.each hentry).map OrderedMap.ofList).congr fun l d => ⟨?_, ?_⟩
        · rintro ⟨f, hf, l, rfl, hbreaks⟩
          exact .value hf hbreaks
        · intro hbreaks
          cases hbreaks with
          | notAMap hv => exact absurd rfl (hv fs)
          | value hf hbreaks => exact ⟨_, hf, _, rfl, hbreaks⟩
    · have hreject : Shape.map check location v = reject location .notAMap := by
        cases v with
        | object fs => exact absurd ⟨fs, rfl⟩ hobject
        | _ => rfl
      refine .of_rejected hreject (.notAMap fun fs hfs => hobject ⟨fs, hfs⟩) fun l d hbreaks => ?_
      cases hbreaks with
      | notAMap _ => exact ⟨rfl, rfl⟩
      | value _ _ => exact absurd ⟨_, rfl⟩ hobject

theorem nullable_of_ne {v : Value} (h : v ≠ .null) (location : Location) :
    nullable check location v = (check location v).map some := by
  cases v with
  | null => exact absurd rfl h
  | _ => rfl

theorem Judges.nullable (h : Judges form R check) :
    Judges (.nullable form) (Holds.nullable R) (nullable check) where
  holds {location v a?} hv ha := by
    by_cases hnull : v = .null
    · subst hnull
      exact .inl ⟨rfl, (Except.ok.inj ha).symm⟩
    · rw [nullable_of_ne hnull] at ha
      obtain ⟨a', ha', rfl⟩ := exists_of_map_eq_ok ha
      exact .inr ⟨a', rfl, h.holds hv ha'⟩
  tells {location v} hv := by
    by_cases hnull : v = .null
    · subst hnull
      refine .of_ok _ fun l d hbreaks => ?_
      cases hbreaks with
      | present hnull _ => exact hnull rfl
    · rw [nullable_of_ne hnull]
      refine ((h.tells hv).map some).congr fun l d => ⟨.present hnull, ?_⟩
      intro hbreaks
      cases hbreaks with
      | present _ hbreaks => exact hbreaks

/-! ## Checks of fields -/

/-- A name among fields is absent, or has one value. -/
theorem lookup_cases {fs : List (Text × Value)} (hnodup : (fs.map Prod.fst).Nodup) (name : Text) :
    fs.lookup name = none ∧ name ∉ fs.map Prod.fst ∨
      ∃ v, fs.lookup name = some v ∧ ∀ w, (name, w) ∈ fs ↔ w = v := by
  have hget {w : Value} (hw : (name, w) ∈ fs) : fs.lookup name = some w :=
    OrderedMap.get?_of_mem ⟨fs, hnodup⟩ hw
  by_cases hname : name ∈ fs.map Prod.fst
  · obtain ⟨⟨_, v⟩, hv, rfl⟩ := List.mem_map.mp hname
    refine .inr ⟨v, hget hv, fun w => ⟨fun hw => ?_, fun hw => hw ▸ hv⟩⟩
    exact Option.some.inj ((hget hw).symm.trans (hget hv))
  · exact .inl ⟨OrderedMap.get?_eq_none ⟨fs, hnodup⟩ hname, hname⟩

/-- If a field is there, only its value can break anything. -/
theorem fieldsBreak_of_present {name : String} {needed : List String} {fs : List (Text × Value)}
    {v : Value} (hv : ∀ w, (name.toList, w) ∈ fs ↔ w = v) (hneeded : ∀ other ∈ needed, other = name)
    (l : Location) (d : Defect) :
    (∃ l', l = name.toList :: l' ∧ form.Breaks v l' d) ↔
      FieldsBreak [(name, form)] needed fs l d := by
  have hmem := (hv v).mpr rfl
  constructor
  · rintro ⟨l, rfl, hbreaks⟩
    exact .field (List.mem_singleton_self (name, form)) hmem hbreaks
  · intro hbreaks
    cases hbreaks with
    | missing hother h =>
      obtain rfl := hneeded _ hother
      exact absurd (List.mem_map_of_mem hmem) h
    | field hfield hw hbreaks =>
      obtain rfl := List.mem_singleton.mp hfield
      obtain rfl := (hv _).mp hw
      exact ⟨_, rfl, hbreaks⟩

theorem Judges.optional (h : Judges form R check) (name : String) (default : α) :
    JudgesFields [(name, form)] [] (Holds.field name default R) (optional name default check) where
  holds {location fs a} hfs ha := by
    cases hfs with
    | object hnodup hfs =>
      rw [Shape.optional] at ha
      rw [Holds.field]
      rcases lookup_cases hnodup name.toList with ⟨hnone, -⟩ | ⟨v, hsome, hv⟩
      · rw [hnone] at ha ⊢
        exact (Except.ok.inj ha).symm
      · rw [hsome] at ha ⊢
        exact h.holds (hfs _ ((hv v).mpr rfl)) ha
  tells {location fs} hfs := by
    cases hfs with
    | object hnodup hfs =>
      rw [Shape.optional]
      rcases lookup_cases hnodup name.toList with ⟨hnone, hname⟩ | ⟨v, hsome, hv⟩
      · rw [hnone]
        refine .of_ok _ fun l d hbreaks => ?_
        cases hbreaks with
        | missing hother _ => cases hother
        | field hfield hw _ =>
          obtain rfl := List.mem_singleton.mp hfield
          exact hname (List.mem_map_of_mem hw)
      · rw [hsome]
        exact (h.tells (hfs _ ((hv v).mpr rfl))).under.congr
          (fieldsBreak_of_present hv fun _ h => absurd h List.not_mem_nil)

theorem Judges.required (h : Judges form R check) (name : String) :
    JudgesFields [(name, form)] [name] (fun fs a => ∃ v, fs.lookup name.toList = some v ∧ R v a)
      (required name check) where
  holds {location fs a} hfs ha := by
    cases hfs with
    | object hnodup hfs =>
      rw [Shape.required] at ha
      rcases lookup_cases hnodup name.toList with ⟨hnone, -⟩ | ⟨v, hsome, hv⟩
      · rw [hnone] at ha
        cases ha
      · rw [hsome] at ha
        exact ⟨v, hsome, h.holds (hfs _ ((hv v).mpr rfl)) ha⟩
  tells {location fs} hfs := by
    cases hfs with
    | object hnodup hfs =>
      rw [Shape.required]
      rcases lookup_cases hnodup name.toList with ⟨hnone, hname⟩ | ⟨v, hsome, hv⟩
      · rw [hnone]
        refine .of_reject rfl fun l d => ⟨?_, ?_⟩
        · intro hbreaks
          cases hbreaks with
          | missing hother _ =>
            obtain rfl := List.mem_singleton.mp hother
            exact ⟨rfl, rfl⟩
          | field hfield hw _ =>
            obtain rfl := List.mem_singleton.mp hfield
            exact absurd (List.mem_map_of_mem hw) hname
        · rintro ⟨rfl, rfl⟩
          exact .missing (List.mem_singleton_self name) hname
      · rw [hsome]
        exact (h.tells (hfs _ ((hv v).mpr rfl))).under.congr
          (fieldsBreak_of_present hv fun _ h => List.mem_singleton.mp h)

theorem JudgesFields.both {fields fields' : List (String × Form)} {needed needed' : List String}
    {R : List (Text × Value) → α → Prop} {S : List (Text × Value) → β → Prop}
    {check : Location → List (Text × Value) → Checked α}
    {check' : Location → List (Text × Value) → Checked β} (h : JudgesFields fields needed R check)
    (h' : JudgesFields fields' needed' S check') (f : α → β → γ) :
    JudgesFields (fields ++ fields') (needed ++ needed')
      (fun fs c => ∃ a b, c = f a b ∧ R fs a ∧ S fs b)
      fun location fs => both f (check location fs) (check' location fs) where
  holds hfs hc := by
    obtain ⟨a, b, ha, hb, rfl⟩ := both_eq_ok hc
    exact ⟨a, b, rfl, h.holds hfs ha, h'.holds hfs hb⟩
  tells hfs := by
    refine ((h.tells hfs).both (h'.tells hfs) f).congr fun l d => ⟨?_, ?_⟩
    · rintro (hbreaks | hbreaks)
      · cases hbreaks with
        | missing hname h => exact .missing (List.mem_append_left _ hname) h
        | field hfield hv h => exact .field (List.mem_append_left _ hfield) hv h
      · cases hbreaks with
        | missing hname h => exact .missing (List.mem_append_right _ hname) h
        | field hfield hv h => exact .field (List.mem_append_right _ hfield) hv h
    · intro hbreaks
      cases hbreaks with
      | missing hname h =>
        exact (List.mem_append.mp hname).imp (.missing · h) (.missing · h)
      | field hfield hv h =>
        exact (List.mem_append.mp hfield).imp (.field · hv h) (.field · hv h)

/-- Each field that is not among the known ones is told. -/
theorem tells_onlyFields (known : List String) (location : Location) (fs : List (Text × Value)) :
    Tells (onlyFields known location fs) location fun l d =>
      ∃ f ∈ fs, (∀ name ∈ known, name.toList ≠ f.1) ∧ l = [f.1] ∧ d = .unknownField := by
  refine (Tells.each fun f _ => ?_).map _
  dsimp only
  split
  · next hf =>
    refine .of_ok _ fun l d h => ?_
    obtain ⟨name, hname, heq⟩ := List.mem_map.mp (List.contains_iff_mem.mp hf)
    exact h.1 name hname heq
  · next hf =>
    refine .of_reject rfl fun l d => and_iff_right fun name hname heq => hf ?_
    exact List.contains_iff_mem.mpr (List.mem_map.mpr ⟨name, hname, heq⟩)

theorem JudgesFields.part {fields : List (String × Form)} {needed : List String}
    {R : List (Text × Value) → α → Prop} {check : Location → List (Text × Value) → Checked α}
    (h : JudgesFields fields needed R check) :
    Judges (.part fields needed) (fun v a => ∃ fs, v = .object fs ∧ R fs a)
      (part (fields.map Prod.fst) check) where
  holds {location v a} hv ha := by
    match v, ha with
    | .object fs, ha =>
      obtain ⟨a', _, ha', -, rfl⟩ := both_eq_ok ha
      exact ⟨fs, rfl, h.holds hv ha'⟩
  tells {location v} hv := by
    by_cases hobject : ∃ fs, v = .object fs
    · obtain ⟨fs, rfl⟩ := hobject
      refine ((h.tells hv).both (tells_onlyFields _ location fs) _).congr fun l d => ⟨?_, ?_⟩
      · rintro (hbreaks | ⟨f, hf, hunknown, rfl, rfl⟩)
        · cases hbreaks with
          | missing hname h => exact .missing hname h
          | field hfield hw h => exact .field hfield hw h
        · exact .unknownField hf fun field hfield => hunknown _ (List.mem_map_of_mem hfield)
      · intro hbreaks
        cases hbreaks with
        | notAnObject hv => exact absurd rfl (hv fs)
        | unknownField hf hunknown =>
          refine .inr ⟨_, hf, fun name hname => ?_, rfl, rfl⟩
          obtain ⟨field, hfield, rfl⟩ := List.mem_map.mp hname
          exact hunknown field hfield
        | missing hname h => exact .inl (.missing hname h)
        | field hfield hw h => exact .inl (.field hfield hw h)
    · have hreject : Shape.part (fields.map Prod.fst) check location v =
          reject location .notAnObject := by
        cases v with
        | object fs => exact absurd ⟨fs, rfl⟩ hobject
        | _ => rfl
      refine .of_rejected hreject (.notAnObject fun fs hfs => hobject ⟨fs, hfs⟩) ?_
      intro l d hbreaks
      cases hbreaks with
      | notAnObject _ => exact ⟨rfl, rfl⟩
      | unknownField _ _ => exact absurd ⟨_, rfl⟩ hobject
      | missing _ _ => exact absurd ⟨_, rfl⟩ hobject
      | field _ _ _ => exact absurd ⟨_, rfl⟩ hobject

/-! ## The parts of a document -/

theorem judges_fields : Judges (.map .scalar) Holds.row fields := judges_scalar.map

theorem isEmpty_iff_of_holds {v : Value} {r : Row} (h : Holds.row v r) :
    r.isEmpty ↔ v = .object [] := by
  obtain ⟨fs, rfl, hentries⟩ := h
  rw [OrderedMap.isEmpty, List.isEmpty_iff, ← List.length_eq_zero_iff, ← hentries.length_eq,
    List.length_eq_zero_iff, Value.object.injEq]

theorem judges_row : Judges .row Holds.row row where
  holds {location v r} hv hr := by
    cases hfields : fields location v with
    | error ps => simp [row, hfields, bind, Except.bind] at hr
    | ok r' =>
      simp only [row, hfields, bind, Except.bind] at hr
      split at hr
      · cases hr
      · obtain rfl := Except.ok.inj hr
        exact judges_fields.holds hv hfields
  tells {location v} hv := by
    have htells : Tells (fields location v) location _ := judges_fields.tells hv
    cases hfields : fields location v with
    | error ps =>
      have hrow : row location v = .error ps := by simp [row, hfields, bind, Except.bind]
      rw [hfields] at htells
      rw [hrow]
      refine Tells.congr ⟨htells.complains, htells.mem_problems⟩ fun l d => ⟨.filled, ?_⟩
      intro hbreaks
      cases hbreaks with
      | tooShort => cases hfields
      | filled hbreaks => exact hbreaks
    | ok r =>
      have hempty := isEmpty_iff_of_holds (judges_fields.holds hv hfields)
      rw [hfields] at htells
      simp only [row, hfields, bind, Except.bind]
      split
      · next hr =>
        obtain rfl := hempty.mp hr
        refine .of_rejected rfl .tooShort fun l d hbreaks => ?_
        cases hbreaks with
        | tooShort => exact ⟨rfl, rfl⟩
        | filled hbreaks => exact absurd hbreaks (htells.unbroken l d)
      · next hr =>
        refine .of_ok _ fun l d hbreaks => ?_
        cases hbreaks with
        | tooShort => exact hr (hempty.mpr rfl)
        | filled hbreaks => exact htells.unbroken l d hbreaks

theorem judges_schema : Judges .schema Holds.schema schema := by
  refine ((judges_text.map.optional "tables" .empty).both
    (judges_text.list.optional "otherSQL" []) Schema.mk).part.imp ?_
  rintro v _ ⟨fs, hv, tables, otherSql, rfl, htables, hotherSql⟩
  exact ⟨fs, hv, htables, hotherSql⟩

theorem judges_update : Judges .update Holds.update update := by
  refine ((judges_row.required "set").both
    (judges_fields.optional "where" .empty) Update.mk).part.imp ?_
  rintro v _ ⟨fs, hv, assignments, conditions, rfl, ⟨w, hw, hset⟩, hwhere⟩
  exact ⟨fs, w, hv, hw, hset, hwhere⟩

theorem judges_changes : Judges .changes Holds.changes changes := by
  refine ((judges_row.list.map.optional "inserts" .empty).both
    ((judges_update.list.map.optional "updates" .empty).both
      (judges_row.list.map.optional "deletes" .empty) Prod.mk)
    fun inserts rest => Changes.mk inserts rest.1 rest.2).part.imp ?_
  rintro v _ ⟨fs, hv, inserts, _, rfl, hinserts, updates, deletes, rfl, hupdates, hdeletes⟩
  exact ⟨fs, hv, hinserts, hupdates, hdeletes⟩

/-- **Main (checks).** The check of a document judges by the form of documents. -/
theorem judges_document : Judges .document Holds.document
    (part ["structure", "data"] fun location fs =>
      both Document.mk (optional "structure" none (nullable schema) location fs)
        (optional "data" none (nullable changes) location fs)) := by
  refine ((judges_schema.nullable.optional "structure" none).both
    (judges_changes.nullable.optional "data" none) Document.mk).part.imp ?_
  rintro v _ ⟨fs, hv, schema?, changes?, rfl, hschema, hchanges⟩
  exact ⟨fs, hv, hschema, hchanges⟩

end Shape

/-! ## What is taken as a document -/

namespace Document

open Shape

/-- What a refusal of a value tells: what the value is, if it is no object, and otherwise every
place where it breaks the form of documents, and their number. -/
inductive Refuses (v : Value) : Refusal → Prop
  | notAnObject (hv : ∀ fs, v ≠ .object fs) : Refuses v (.invalid (.notAnObject v.typeName none))
  | misshapen {fs : List (Text × Value)} {problems : List Problem} (hv : v = .object fs)
    (hproblems : problems ≠ [])
    (hbreaks : ∀ p : Problem, p ∈ problems ↔ Form.document.Breaks v p.location p.defect)
    (hinside : ∀ p ∈ problems, IsInside v p.location p.defect)
    (hmessage : ∃ rest, (ParseError.misshapen problems none).message =
      "Document structure is invalid: ".toList ++ Decimal.digits problems.length ++ ' ' :: rest) :
    Refuses v (.invalid (.misshapen problems none))

theorem message_misshapen (problems : List Problem) : ∃ rest,
    (ParseError.misshapen problems none).message =
      "Document structure is invalid: ".toList ++ Decimal.digits problems.length ++
        ' ' :: rest := by
  have hword : " validation error".toList = ' ' :: "validation error".toList := rfl
  refine ⟨"validation error".toList ++ ((if problems.length = 1 then [] else ['s']) ++
    " for Document".toList), ?_⟩
  unfold ParseError.message
  simp only [hword, List.append_assoc, List.cons_append]

theorem parse_object (fs : List (Text × Value)) :
    parse (.value (.object fs)) = (Shape.document (.object fs)).mapError fun problems =>
      .invalid (.misshapen problems none) := rfl

theorem parse_of_not_object {v : Value} (hv : v.IsDecoded) (htext : ∀ t, v ≠ .text t)
    (hobject : ∀ fs, v ≠ .object fs) :
    parse (.value v) = .error (.invalid (.notAnObject v.typeName none)) := by
  cases hv with
  | text t => exact absurd rfl (htext t)
  | object => exact absurd rfl (hobject _)
  | _ => rfl

/-- **Main.** A decoded value that is no text is taken as a document if and only if it fits the
form of documents; the document then holds its entries, and the refusal tells why otherwise. -/
theorem parse_decoded {v : Value} (hv : v.IsDecoded) (htext : ∀ t, v ≠ .text t) :
    ((∃ d, parse (.value v) = .ok d) ↔ Form.document.Fits v) ∧
      (∀ d, parse (.value v) = .ok d → Holds.document v d) ∧
      ∀ refusal, parse (.value v) = .error refusal → Refuses v refusal := by
  by_cases hobject : ∃ fs, v = .object fs
  · obtain ⟨fs, rfl⟩ := hobject
    have htells : Tells (Shape.document (.object fs)) [] (Form.document.Breaks (.object fs)) :=
      judges_document.tells hv
    rw [parse_object]
    cases hcheck : Shape.document (.object fs) with
    | ok d =>
      rw [hcheck] at htells
      refine ⟨⟨fun _ => Form.fits_of_unbroken _ htells.unbroken, fun _ => ⟨d, rfl⟩⟩, ?_, nofun⟩
      intro d' hd'
      obtain rfl := Except.ok.inj hd'
      exact judges_document.holds hv hcheck
    | error problems =>
      rw [hcheck] at htells
      have hproblems : problems ≠ [] := fun h => htells.complains (congrArg _ h)
      have hbreaks (p : Problem) :
          p ∈ problems ↔ Form.document.Breaks (.object fs) p.location p.defect := by
        simpa [Shape.problems] using htells.mem_problems p
      refine ⟨⟨nofun, fun hfits => ?_⟩, nofun, fun refusal hrefusal => ?_⟩
      · obtain ⟨p, hp⟩ := List.exists_mem_of_ne_nil problems hproblems
        exact absurd hfits ((hbreaks p).mp hp).not_fits
      · obtain rfl := Except.error.inj hrefusal
        refine .misshapen rfl hproblems hbreaks (fun p hp => ?_) ?_
        · exact ((hbreaks p).mp hp).isInside Form.needsOnly_document
        · exact message_misshapen problems
  · have hnot (fs : List (Text × Value)) : v ≠ .object fs := fun h => hobject ⟨fs, h⟩
    rw [parse_of_not_object hv htext hnot]
    refine ⟨⟨nofun, fun hfits => ?_⟩, nofun, fun refusal hrefusal => ?_⟩
    · cases hfits with
      | part => exact absurd rfl (hnot _)
    · obtain rfl := Except.error.inj hrefusal
      exact .notAnObject hnot

/-- The value of a document that deletes one row of the table `t`. -/
def deleting (row : Value) : Value :=
  .object [("data".toList, .object [("deletes".toList, .object [("t".toList, .list [row])])])]

theorem isDecoded_deleting {row : Value} (h : row.IsDecoded) : (deleting row).IsDecoded := by
  have hobject {name : Text} {v : Value} (hv : v.IsDecoded) :
      (Value.object [(name, v)]).IsDecoded :=
    .object (by simp) (List.forall_mem_singleton.mpr hv)
  exact hobject (hobject (hobject (.list (List.forall_mem_singleton.mpr h))))

/-- A row with an integer in it is taken as it is, and a row without columns, which would delete
all rows, is refused. -/
theorem parse_deleting :
    (∃ d, parse (.value (deleting (.object [("a".toList, .int 1)]))) = .ok d ∧
      Holds.document (deleting (.object [("a".toList, .int 1)])) d) ∧
    ¬Form.document.Fits (deleting (.object [])) ∧
    ∃ refusal, parse (.value (deleting (.object []))) = .error refusal ∧
      Refuses (deleting (.object [])) refusal := by
  have hfull : (deleting (.object [("a".toList, .int 1)])).IsDecoded :=
    isDecoded_deleting (.object (by simp) (List.forall_mem_singleton.mpr (.int 1)))
  have hempty : (deleting (.object [])).IsDecoded :=
    isDecoded_deleting (.object .nil fun _ h => nomatch h)
  refine ⟨⟨_, rfl, (parse_decoded hfull nofun).2.1 _ rfl⟩, fun hfits => ?_,
    _, rfl, (parse_decoded hempty nofun).2.2 _ rfl⟩
  obtain ⟨d, hd⟩ := (parse_decoded hempty nofun).1.mpr hfits
  cases hd

end Document
end SqlInterchange
