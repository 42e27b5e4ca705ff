import Mathlib.Data.List.Forall2
import SqlInterchange.Proofs.Json.Steps
import SqlInterchange.Proofs.Json.Strings
import SqlInterchange.Proofs.OrderedMap

/-! # Values read back

A value written as JSON, in either layout, is read as the value (`read_write`), if it has a form
of its own, no integer of more digits than are read, and no object with a name twice
(`Writable`).  What is written for a value reads back before whatever may follow it
(`ReadsBack`): the separators and line breaks behind it are blanks, commas and brackets, with
which no number goes on.  Lists and objects are read part by part in the same way
(`ReadsParts`), by what one step of their reading does.  The fuel that a text needs is twice its
length, and each part leaves enough of it.
-/
namespace SqlInterchange.Json

/-! ## Blanks -/

theorem isSpace_lineBreak {indent : Indent} {level : Nat} :
    ∀ c ∈ indent.lineBreak level, isSpace c := by
  intro c hc
  cases indent with
  | none => cases hc
  | some n =>
    rcases List.mem_cons.mp hc with rfl | hc
    · rfl
    · rw [List.eq_of_mem_replicate hc]
      rfl

/-- A separator is a comma and blanks. -/
theorem exists_comma (indent : Indent) (level : Nat) {c : Char} (hc : isSpace c = false)
    (t : Text) :
    ∃ more, indent.separator level ++ c :: t = ',' :: more ∧ skipSpace more = c :: t := by
  cases indent with
  | none =>
    have hblank : ∀ b ∈ [' '], isSpace b := by simp [isSpace]
    exact ⟨_, rfl, (skipSpace_append hblank).trans (skipSpace_cons hc t)⟩
  | some n => exact ⟨_, rfl, (skipSpace_append isSpace_lineBreak).trans (skipSpace_cons hc t)⟩

theorem length_separator_pos (indent : Indent) (level : Nat) :
    0 < (indent.separator level).length := by
  cases indent with
  | none => exact Nat.succ_pos _
  | some n => exact Nat.succ_pos _

/-! ## What a value starts with -/

/-- A text that is read as a value starts neither with a blank nor with what closes a list, nor
with a byte order mark. -/
theorem exists_first_of_value {fuel : Nat} {t : Text} {result : Value × Text}
    (h : value fuel t = .ok result) :
    ∃ c cs, t = c :: cs ∧ isSpace c = false ∧ c ≠ ']' ∧ c ≠ '\ufeff' := by
  match fuel, t, h with
  | fuel + 1, c :: cs, h =>
    refine ⟨c, cs, rfl, ?_⟩
    refine ⟨?_, ?_, ?_⟩
    · by_contra hspace
      rcases isSpace_cases (Bool.of_not_eq_false hspace) with rfl | rfl | rfl | rfl
      · cases h
      · cases h
      · cases h
      · cases h
    · rintro rfl
      cases h
    · rintro rfl
      cases h

/-! ## The parts of a list or an object -/

/-- Whether a text is read as a value, before every text with which no number goes on. -/
def ReadsBack (t : Text) (v : Value) : Prop :=
  ∀ fuel rest, 2 * t.length ≤ fuel → Ends rest → value fuel (t ++ rest) = .ok (v, rest)

/-- Whether a text is the name of a field and a text that is read as its value. -/
def ReadsBackField (t : Text) (f : Text × Value) : Prop :=
  ∃ u, t = writeString f.1 ++ ':' :: ' ' :: u ∧ ReadsBack u f.2

theorem ReadsBack.exists_first {t : Text} {v : Value} (h : ReadsBack t v) :
    ∃ c cs, t = c :: cs ∧ isSpace c = false ∧ c ≠ ']' ∧ c ≠ '\ufeff' := by
  have hvalue := h (2 * t.length) [] (Nat.le_refl _) (by simp [Ends])
  rw [List.append_nil] at hvalue
  exact exists_first_of_value hvalue

theorem value_of_scalar {fuel : Nat} {t : Text} {result : Value × Text}
    (h : scalar t = .ok result) : value (fuel + 1) t = .ok result := by
  match t, h with
  | c :: cs, h =>
    have hquote : c ≠ '\x22' := by rintro rfl; cases h
    have hbrace : c ≠ '\x7b' := by rintro rfl; cases h
    have hbracket : c ≠ '[' := by rintro rfl; cases h
    rw [value_eq_scalar hquote hbrace hbracket, h]

theorem readsBack_scalar {t : Text} {v : Value}
    (h : ∀ rest, Ends rest → scalar (t ++ rest) = .ok (v, rest)) : ReadsBack t v := by
  intro fuel rest hfuel hrest
  have hne : t ≠ [] := by
    rintro rfl
    cases h [] (by simp [Ends])
  have hlength := List.length_pos_iff.mpr hne
  obtain ⟨fuel, rfl⟩ : ∃ n, fuel = n + 1 := ⟨fuel - 1, by omega⟩
  exact value_of_scalar (h rest hrest)

/-- A name is read with the blank behind its colon. -/
theorem name_write {key t : Text} {c : Char} (hc : isSpace c = false) :
    name (writeString key ++ ':' :: ' ' :: (c :: t)) = .ok (key, c :: t) := by
  have hstring := string_write key (':' :: ' ' :: c :: t)
  have hcolon : skipSpace (':' :: ' ' :: c :: t) = ':' :: ' ' :: c :: t := skipSpace_cons rfl _
  have hblank : ∀ b ∈ [' '], isSpace b := by simp [isSpace]
  have hvalue : skipSpace (' ' :: c :: t) = c :: t :=
    (skipSpace_append hblank).trans (skipSpace_cons hc t)
  rw [writeString]
  simp only [List.cons_append, List.append_assoc, List.nil_append, name, if_true]
  rw [hstring]
  simp only [bind, Except.bind, hcolon, hvalue]

/-- Reading parts up to a closing bracket, `part` being the texts of parts: a part starts neither
with a blank nor with the bracket, and is read before the bracket, and before a comma and more
parts. -/
structure ReadsParts {α : Type} (part : Text → α → Prop)
    (run : Nat → Text → Reading (List α × Text)) (closing : Char) : Prop where
  closes : isSpace closing = false ∧
    closing.isDigit = false ∧ closing ≠ '.' ∧ closing ≠ 'e' ∧ closing ≠ 'E'
  first : ∀ {t a}, part t a → ∃ c cs, t = c :: cs ∧ isSpace c = false ∧ c ≠ closing
  last : ∀ {t a fuel after rest}, part t a → 2 * t.length ≤ fuel → Ends after →
    skipSpace after = closing :: rest → run (fuel + 1) (t ++ after) = .ok ([a], rest)
  more : ∀ {t a fuel after more as rest}, part t a → 2 * t.length ≤ fuel → Ends after →
    skipSpace after = ',' :: more → run fuel (skipSpace more) = .ok (as, rest) →
    run (fuel + 1) (t ++ after) = .ok (a :: as, rest)

/-- What reads parts by steps reads the texts of parts, if they are read one by one. -/
theorem Lists.readsParts {α : Type} {one : Nat → Text → Reading (α × Text)}
    {run : Nat → Text → Reading (List α × Text)} {closing : Char} (h : Lists one run closing)
    {part : Text → α → Prop}
    (hpart : ∀ {t a}, part t a → ReadsBy one t a)
    (hfirst : ∀ {t a}, part t a → ∃ c cs, t = c :: cs ∧ isSpace c = false ∧ c ≠ closing) :
    ReadsParts part run closing where
  closes := h.closes
  first := hfirst
  last ht hfuel hends hskip := h.run_last (hpart ht _ _ hfuel hends) hskip
  more ht hfuel hends hskip hmore := by
    rw [h.run_more (hpart ht _ _ hfuel hends) hskip, hmore]
    rfl

theorem readsParts_items : ReadsParts ReadsBack items ']' := by
  refine lists_items.readsParts (fun h => h) fun h => ?_
  obtain ⟨c, cs, rfl, hspace, hclosing, -⟩ := h.exists_first
  exact ⟨c, cs, rfl, hspace, hclosing⟩

theorem readsParts_fields : ReadsParts ReadsBackField fields '\x7d' := by
  refine lists_fields.readsParts (fun h fuel rest hfuel hrest => ?_) fun h => ?_
  · obtain ⟨u, rfl, hu⟩ := h
    obtain ⟨c, cs, rfl, hspace, -⟩ := hu.exists_first
    simp only [List.length_append, List.length_cons] at hfuel
    rw [List.append_assoc, field]
    simp only [List.cons_append, name_write hspace, bind, Except.bind]
    rw [← List.cons_append, hu fuel rest (by simp only [List.length_cons]; omega) hrest]
  · obtain ⟨u, rfl, -⟩ := h
    exact ⟨'\x22', _, rfl, by decide, by decide⟩

namespace ReadsParts

variable {α : Type} {part : Text → α → Prop} {run : Nat → Text → Reading (List α × Text)}
  {closing : Char}

/-- Texts with separators between them start as the first one does. -/
theorem first_intercalate (h : ReadsParts part run closing) {t : Text} {a : α} (ht : part t a)
    (indent : Indent) (level : Nat) (ts : List Text) :
    ∃ c cs, List.intercalate (indent.separator level) (t :: ts) = c :: cs ∧
      isSpace c = false ∧ c ≠ closing := by
  obtain ⟨c, cs, rfl, hc⟩ := h.first ht
  cases ts with
  | nil => exact ⟨c, cs, List.intercalate_singleton, hc⟩
  | cons t' ts => exact ⟨c, _, List.intercalate_cons_cons, hc⟩

/-- The texts of parts, with separators between them, are read as the parts. -/
theorem run_intercalate (h : ReadsParts part run closing) (indent : Indent) (level : Nat)
    {after rest : Text} (hends : Ends after) (hskip : skipSpace after = closing :: rest)
    {ts : List Text} {as : List α} (hparts : List.Forall₂ part ts as) (hne : ts ≠ []) {fuel : Nat}
    (hfuel : 2 * (List.intercalate (indent.separator level) ts).length < fuel) :
    run fuel (List.intercalate (indent.separator level) ts ++ after) = .ok (as, rest) := by
  -- each part leaves fuel for the ones behind it, as the separator takes two characters' worth
  induction hparts generalizing fuel with
  | nil => exact absurd rfl hne
  | @cons t a ts as ht hts ih =>
    obtain ⟨fuel, rfl⟩ : ∃ n, fuel = n + 1 := ⟨fuel - 1, by omega⟩
    cases hts with
    | nil =>
      rw [List.intercalate_singleton] at hfuel ⊢
      exact h.last ht (by omega) hends hskip
    | @cons t' a' ts as ht' hts =>
      obtain ⟨c, cs, hfirst, hspace, -⟩ := h.first_intercalate ht' indent level ts
      obtain ⟨more, hmore, hskipmore⟩ := exists_comma indent level hspace (cs ++ after)
      have hcomma := length_separator_pos indent level
      have has := @ih (List.cons_ne_nil _ _) fuel
      rw [List.intercalate_cons_cons, hfirst, List.length_append, List.length_append] at hfuel
      rw [List.intercalate_cons_cons, hfirst, List.append_assoc, List.append_assoc,
        List.cons_append, hmore]
      refine h.more ht (by omega) (ends_cons (by decide) _) (skipSpace_cons rfl _) ?_
      rw [hskipmore]
      rw [hfirst] at has
      exact has (by omega)

/-- What stands between brackets is blanks and then text that is read as the parts. -/
theorem run_enclose (h : ReadsParts part run closing) (indent : Indent) (level : Nat)
    (opening : Char) (rest : Text) {ts : List Text} {as : List α}
    (hparts : List.Forall₂ part ts as) (hne : ts ≠ []) {fuel : Nat}
    (hfuel : 2 * (enclose indent level opening closing ts).length ≤ fuel + 1) :
    ∃ c cs t, enclose indent level opening closing ts ++ rest = opening :: cs ∧
      skipSpace cs = c :: t ∧ c ≠ closing ∧ run fuel (c :: t) = .ok (as, rest) := by
  have hopen (after : Text) : enclose indent level opening closing ts ++ after =
      opening :: (indent.lineBreak (level + 1) ++
        (List.intercalate (indent.separator (level + 1)) ts ++
          (indent.lineBreak level ++ closing :: after))) := by
    simp [enclose, hne]
  have hlength := congrArg List.length (hopen [])
  simp only [List.length_append, List.length_cons, List.length_nil] at hlength
  have hclose : skipSpace (indent.lineBreak level ++ closing :: rest) = closing :: rest :=
    (skipSpace_append isSpace_lineBreak).trans (skipSpace_cons h.closes.1 rest)
  have hrun := h.run_intercalate indent (level + 1)
    (ends_gap_append isSpace_lineBreak (ends_cons h.closes.2 rest)) hclose hparts hne
    (show _ < fuel by omega)
  cases hparts with
  | nil => exact absurd rfl hne
  | @cons t a ts as ht hts =>
    obtain ⟨c, cs, hfirst, hspace, hclosing⟩ := h.first_intercalate ht indent (level + 1) ts
    rw [hfirst, List.cons_append] at hrun
    refine ⟨c, _, _, hopen rest, ?_, hclosing, hrun⟩
    rw [hfirst, List.cons_append, skipSpace_append isSpace_lineBreak, skipSpace_cons hspace]

end ReadsParts

/-! ## Lists and objects -/

theorem length_enclose_pos (indent : Indent) (level : Nat) (opening closing : Char)
    (ts : List Text) : 0 < (enclose indent level opening closing ts).length := by
  unfold enclose
  split
  · exact Nat.succ_pos _
  · exact Nat.succ_pos _

theorem readsBack_list {ts : List Text} {vs : List Value} (h : List.Forall₂ ReadsBack ts vs)
    (indent : Indent) (level : Nat) : ReadsBack (enclose indent level '[' ']' ts) (.list vs) := by
  intro fuel rest hfuel hrest
  have hpos := length_enclose_pos indent level '[' ']' ts
  obtain ⟨fuel, rfl⟩ : ∃ n, fuel = n + 1 := ⟨fuel - 1, by omega⟩
  by_cases hne : ts = []
  · subst hne
    cases h
    rfl
  · obtain ⟨c, cs, t, hopen, hskip, hclosing, hrun⟩ :=
      readsParts_items.run_enclose indent level '[' rest h hne hfuel
    rw [hopen, value_list, enclosed_of_ne (by simpa [hskip] using hclosing), hskip, hrun]
    rfl

theorem readsBack_object {ts : List Text} {fs : List (Text × Value)}
    (h : List.Forall₂ ReadsBackField ts fs) (hnodup : (fs.map Prod.fst).Nodup) (indent : Indent)
    (level : Nat) : ReadsBack (enclose indent level '\x7b' '\x7d' ts) (.object fs) := by
  intro fuel rest hfuel hrest
  have hpos := length_enclose_pos indent level '\x7b' '\x7d' ts
  obtain ⟨fuel, rfl⟩ : ∃ n, fuel = n + 1 := ⟨fuel - 1, by omega⟩
  by_cases hne : ts = []
  · subst hne
    cases h
    rfl
  · obtain ⟨c, cs, t, hopen, hskip, hclosing, hrun⟩ :=
      readsParts_fields.run_enclose indent level '\x7b' rest h hne hfuel
    rw [hopen, value_object, enclosed_of_ne (by simpa [hskip] using hclosing), hskip, hrun]
    exact congrArg (fun es => Except.ok (Value.object es, rest)) (OrderedMap.entries_ofList hnodup)

/-! ## Values -/

/-- Whether a value comes back from JSON: it has a form of its own there, none of its integers has
more digits than are read, and none of its objects has a name twice. -/
inductive Writable : Value → Prop
  | null : Writable .null
  | bool (b : Bool) : Writable (.bool b)
  | int (n : Int) (h : (Decimal.digits n.natAbs).length ≤ maxDigits) : Writable (.int n)
  | float (x : Binary64) : Writable (.float x)
  | text (t : Text) : Writable (.text t)
  | list (items : List Value) (h : ∀ v ∈ items, Writable v) : Writable (.list items)
  | object (fields : List (Text × Value)) (hnodup : (fields.map Prod.fst).Nodup)
      (h : ∀ f ∈ fields, Writable f.2) : Writable (.object fields)

theorem readsBack_text (t : Text) : ReadsBack (writeString t) (.text t) := by
  intro fuel rest hfuel hrest
  obtain ⟨fuel, rfl⟩ : ∃ n, fuel = n + 1 := ⟨fuel - 1, by
    simp only [writeString, List.length_append, List.length_cons] at hfuel
    omega⟩
  have hstring := string_write t rest
  simp only [writeString, List.cons_append, List.append_assoc, List.nil_append]
  rw [value_string, hstring]
  rfl

theorem writeItems_eq (indent : Indent) (level : Nat) (vs : List Value) :
    writeItems indent level vs = vs.map (writeAt indent level) := by
  induction vs with
  | nil => rfl
  | cons v vs ih => rw [writeItems, ih, List.map_cons]

theorem writeFields_eq (indent : Indent) (level : Nat) (fs : List (Text × Value)) :
    writeFields indent level fs =
      fs.map fun f => writeString f.1 ++ ':' :: ' ' :: writeAt indent level f.2 := by
  induction fs with
  | nil => rfl
  | cons f fs ih => rw [writeFields, ih, List.map_cons]

/-- What is written for a value reads back before whatever may follow it. -/
theorem Writable.readsBack {v : Value} (h : Writable v) (indent : Indent) :
    ∀ level, ReadsBack (writeAt indent level v) v := by
  induction h with
  | null => exact fun level => readsBack_scalar fun rest _ => rfl
  | bool b =>
    intro level
    cases b with
    | false => exact readsBack_scalar fun rest _ => rfl
    | true => exact readsBack_scalar fun rest _ => rfl
  | int n hn => exact fun level => readsBack_scalar fun rest hrest => scalar_writeInt hn hrest
  | float x => exact fun level => readsBack_scalar fun rest hrest => scalar_writeFloat x hrest
  | text t => exact fun level => readsBack_text t
  | list vs _ ih =>
    intro level
    rw [writeAt, writeItems_eq]
    refine readsBack_list ?_ indent level
    rw [List.forall₂_map_left_iff, List.forall₂_same]
    exact fun v hv => ih v hv (level + 1)
  | object fs hnodup _ ih =>
    intro level
    rw [writeAt, writeFields_eq]
    refine readsBack_object ?_ hnodup indent level
    rw [List.forall₂_map_left_iff, List.forall₂_same]
    exact fun f hf => ⟨_, rfl, ih f hf (level + 1)⟩

/-- **Main.** A value written as JSON is read as the value, in every layout. -/
theorem read_write {v : Value} (h : Writable v) (indent : Indent) :
    read (write indent v) = .ok v := by
  have hback := h.readsBack indent 0
  obtain ⟨c, cs, hfirst, hspace, -, hmark⟩ := hback.exists_first
  have hvalue := hback (2 * (c :: cs).length + 2) [] (by rw [hfirst]; omega) (by simp [Ends])
  rw [List.append_nil] at hvalue
  have hnone : (c :: cs).head? ≠ some '\ufeff' := fun heq => hmark (Option.some.inj heq)
  rw [write, hfirst] at *
  rw [read, if_neg hnone, skipSpace_cons hspace]
  simp only [bind, Except.bind, hvalue]
  rfl

end SqlInterchange.Json
