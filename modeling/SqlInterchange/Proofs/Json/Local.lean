import SqlInterchange.Proofs.Json.RoundTrip
import SqlInterchange.Proofs.Json.Tokens

/-! # Values are read from their text alone

A value that is read off a text takes up a stretch at its start, and the stretch is read as the
same value before every other text with which no number goes on (`localAt_value`).  With values
so are the parts of lists and objects: by induction on the fuel, as each step reads its parts with
less of it.  The stretch needs no more fuel than twice its length, whatever fuel it was read with
(`ReadsBy`).
-/
namespace SqlInterchange.Json

/-- Whether everything that is read with some fuel is read from its text alone. -/
def LocalAt {β : Type} (run : Nat → Text → Reading (β × Text)) (fuel : Nat) : Prop :=
  ∀ {t x rest}, run fuel t = .ok (x, rest) → ∃ a, t = a ++ rest ∧ ReadsBy run a x

/-! ## Parts between brackets -/

namespace Lists

variable {α : Type} {one : Nat → Text → Reading (α × Text)}
  {run : Nat → Text → Reading (List α × Text)} {closing : Char} {fuel : Nat}
  {p gap gap' b : Text} {a : α} {as : List α}

theorem ne_nil (h : Lists one run closing) (hb : ReadsBy run b as) : b ≠ [] := by
  rintro rfl
  obtain ⟨stop, hstop⟩ := h.zero []
  cases hstop.symm.trans (hb 0 [] (Nat.le_refl 0) (by simp [Ends]))

theorem readsBy_last (h : Lists one run closing) (hp : ReadsBy one p a)
    (hgap : ∀ c ∈ gap, isSpace c) : ReadsBy run (p ++ (gap ++ [closing])) [a] := by
  intro fuel rest hfuel hrest
  simp only [List.length_append, List.length_singleton] at hfuel
  obtain ⟨fuel, rfl⟩ := Nat.exists_eq_add_of_le' (show 1 ≤ fuel by omega)
  simp only [List.append_assoc, List.singleton_append]
  have hends := ends_gap_append hgap (ends_cons h.closes.2 rest)
  exact h.run_last (hp fuel _ (by omega) hends) (h.skipSpace_closing hgap rest)

/-- Behind a part, a comma leads to what the other parts make of the text that follows. -/
theorem run_comma (h : Lists one run closing) (hp : ReadsBy one p a) (hgap : ∀ c ∈ gap, isSpace c)
    (hgap' : ∀ c ∈ gap', isSpace c) {t : Text} (ht : skipSpace t = t)
    (hfuel : 2 * p.length ≤ fuel) : run (fuel + 1) (p ++ (gap ++ ',' :: (gap' ++ t))) =
      (run fuel t).map fun (as, rest) => (a :: as, rest) := by
  have hends : Ends (gap ++ ',' :: (gap' ++ t)) := ends_gap_append hgap (ends_cons (by decide) _)
  have hcomma : skipSpace (gap ++ ',' :: (gap' ++ t)) = ',' :: (gap' ++ t) :=
    (skipSpace_append hgap).trans (skipSpace_cons rfl _)
  have hothers : skipSpace (gap' ++ t) = t := (skipSpace_append hgap').trans ht
  rw [h.run_more (hp fuel _ hfuel hends) hcomma, hothers]

theorem readsBy_more (h : Lists one run closing) (hp : ReadsBy one p a)
    (hgap : ∀ c ∈ gap, isSpace c) (hgap' : ∀ c ∈ gap', isSpace c) (hb : ReadsBy run b as)
    (hstart : ∀ rest, skipSpace (b ++ rest) = b ++ rest) :
    ReadsBy run (p ++ (gap ++ ',' :: (gap' ++ b))) (a :: as) := by
  intro fuel rest hfuel hrest
  simp only [List.length_append, List.length_cons] at hfuel
  obtain ⟨fuel, rfl⟩ := Nat.exists_eq_add_of_le' (show 1 ≤ fuel by omega)
  simp only [List.append_assoc, List.cons_append]
  rw [h.run_comma hp hgap hgap' (hstart rest) (by omega), hb fuel rest (by omega) hrest]
  rfl

theorem localAt (h : Lists one run closing) (hone : LocalAt one fuel) (hrun : LocalAt run fuel) :
    LocalAt run (fuel + 1) := by
  intro t as rest hread
  cases hfirst : one fuel t with
  | error stop => cases (h.run_of_error hfirst).symm.trans hread
  | ok result =>
    obtain ⟨a, after⟩ := result
    obtain ⟨p, rfl, hp⟩ := hone hfirst
    obtain ⟨gap, hafter, hgap⟩ := exists_gap after
    rcases h.run_cases hfirst with ⟨behind, hbehind⟩ | ⟨more, hbehind⟩ | hcomplaint
    · cases (h.run_last hfirst hbehind).symm.trans hread
      rw [hbehind] at hafter
      exact ⟨_, by simp [hafter], h.readsBy_last hp hgap⟩
    · rw [h.run_more hfirst hbehind] at hread
      obtain ⟨_, hmore, heq⟩ := exists_of_map_eq_ok hread
      cases heq
      obtain ⟨b, hb, hreads⟩ := hrun hmore
      obtain ⟨gap', hgapped, hgap'⟩ := exists_gap more
      have hstart := skipSpace_skipSpace more
      rw [hb] at hstart hgapped
      rw [hbehind] at hafter
      exact ⟨_, by simp [hafter, hgapped], h.readsBy_more hp hgap hgap' hreads
        (skipSpace_append_of_ne_nil (h.ne_nil hreads) hstart)⟩
    · cases hcomplaint.symm.trans hread

theorem localAt_enclosed (h : Lists one run closing) (make : List α → Value)
    (hrun : LocalAt run fuel) : LocalAt (fun fuel => enclosed (run fuel) closing make) fuel := by
  intro t v rest hread
  obtain ⟨gap, ht, hgap⟩ := exists_gap t
  by_cases hclosing : (skipSpace t).head? = some closing
  · obtain ⟨behind, hbehind⟩ := List.head?_eq_some_iff.mp hclosing
    cases (enclosed_of_closing hbehind).symm.trans hread
    rw [hbehind] at ht
    refine ⟨gap ++ [closing], by simp [ht], fun fuel rest _ _ => ?_⟩
    rw [List.append_assoc]
    exact enclosed_of_closing (h.skipSpace_closing hgap rest)
  · obtain ⟨_, hparts, heq⟩ := exists_of_map_eq_ok ((enclosed_of_ne hclosing).symm.trans hread)
    cases heq
    obtain ⟨b, hb, hreads⟩ := hrun hparts
    have hne := h.ne_nil hreads
    have hstart := skipSpace_skipSpace t
    rw [hb] at ht hstart
    rw [hb, List.head?_append_of_ne_nil _ hne] at hclosing
    refine ⟨gap ++ b, by rw [List.append_assoc, ← ht], fun fuel rest hfuel hrest => ?_⟩
    have hskip : skipSpace (gap ++ (b ++ rest)) = b ++ rest :=
      (skipSpace_append hgap).trans (skipSpace_append_of_ne_nil hne hstart rest)
    have hopen : (skipSpace (gap ++ (b ++ rest))).head? ≠ some closing := by
      rwa [hskip, List.head?_append_of_ne_nil _ hne]
    rw [List.length_append] at hfuel
    dsimp only
    rw [List.append_assoc, enclosed_of_ne hopen, hskip, hreads fuel rest (by omega) hrest]
    rfl

end Lists

/-! ## Fields -/

/-- A name is read from its text alone, with the blanks behind its colon. -/
theorem exists_of_name {t key after : Text} (h : name t = .ok (key, after)) :
    skipSpace after = after ∧ ∃ b, t = b ++ after ∧
      ∀ rest, skipSpace rest = rest → name (b ++ rest) = .ok (key, rest) := by
  cases t with
  | nil => cases h
  | cons c cs =>
    by_cases hquote : c = '\x22'
    · subst hquote
      rw [name, if_pos rfl] at h
      obtain ⟨⟨s, behind⟩, hstring, h⟩ := exists_of_bind_eq_ok h
      dsimp only at h
      split at h
      · next more hcolon =>
        cases h
        obtain ⟨a, rfl, ha⟩ := exists_of_string hstring
        obtain ⟨gap, hbehind, hgap⟩ := exists_gap behind
        obtain ⟨gap', hmore, hgap'⟩ := exists_gap more
        rw [hcolon, hmore] at hbehind
        refine ⟨skipSpace_skipSpace more, '\x22' :: (a ++ (gap ++ ':' :: gap')),
          by simp [hbehind], fun rest hrest => ?_⟩
        have hcolon' : skipSpace (gap ++ ':' :: (gap' ++ rest)) = ':' :: (gap' ++ rest) :=
          (skipSpace_append hgap).trans (skipSpace_cons rfl _)
        have hrest' : skipSpace (gap' ++ rest) = rest := (skipSpace_append hgap').trans hrest
        simp only [List.cons_append, List.append_assoc, name, if_true, ha.string, bind,
          Except.bind, hcolon', hrest']
      · cases h
    · rw [name, if_neg hquote] at h
      cases h

theorem ReadsBack.skipSpace_append {u : Text} {v : Value} (h : ReadsBack u v) (rest : Text) :
    skipSpace (u ++ rest) = u ++ rest := by
  obtain ⟨c, cs, rfl, hspace, -⟩ := h.exists_first
  exact skipSpace_cons hspace _

theorem localAt_field {fuel : Nat} (h : LocalAt value fuel) : LocalAt field fuel := by
  intro t f rest hread
  obtain ⟨⟨key, after⟩, hname, hread⟩ := exists_of_bind_eq_ok hread
  obtain ⟨⟨v, behind⟩, hvalue, hread⟩ := exists_of_bind_eq_ok hread
  cases hread
  obtain ⟨-, b, rfl, hb⟩ := exists_of_name hname
  obtain ⟨u, hu, hreads⟩ := h hvalue
  refine ⟨b ++ u, by rw [hu, List.append_assoc], fun fuel rest hfuel hrest => ?_⟩
  rw [List.length_append] at hfuel
  have hname' := hb (u ++ rest) (ReadsBack.skipSpace_append hreads rest)
  rw [List.append_assoc, field]
  simp only [hname', bind, Except.bind, hreads fuel rest (by omega) hrest]

/-! ## Values -/

theorem localAt_string (fuel : Nat) :
    LocalAt (fun _ t => (string t).map fun (s, rest) => (Value.text s, rest)) fuel := by
  intro t v rest h
  obtain ⟨_, hstring, heq⟩ := exists_of_map_eq_ok h
  cases heq
  obtain ⟨a, rfl, ha⟩ := exists_of_string hstring
  refine ⟨a, rfl, fun fuel rest _ _ => ?_⟩
  dsimp only
  rw [ha.string]
  rfl

theorem localAt_value_succ {fuel : Nat} (hitems : LocalAt items fuel)
    (hfields : LocalAt fields fuel) : LocalAt value (fuel + 1) := by
  -- the opening character pays for the step of fuel that what is behind it has less
  have hopens {opening : Char} {inner : Nat → Text → Reading (Value × Text)}
      (hopen : ∀ fuel t, value (fuel + 1) (opening :: t) = inner fuel t)
      (hinner : LocalAt inner fuel) {t : Text} {v : Value} {rest : Text}
      (h : value (fuel + 1) (opening :: t) = .ok (v, rest)) :
      ∃ a, opening :: t = a ++ rest ∧ ReadsBy value a v := by
    rw [hopen] at h
    obtain ⟨a, rfl, ha⟩ := hinner h
    refine ⟨opening :: a, rfl, fun fuel rest hfuel hrest => ?_⟩
    rw [List.length_cons] at hfuel
    obtain ⟨fuel, rfl⟩ := Nat.exists_eq_add_of_le' (show 1 ≤ fuel by omega)
    rw [List.cons_append, hopen, ha fuel rest (by omega) hrest]
  intro t v rest h
  cases t with
  | nil => cases h
  | cons c cs =>
    by_cases hquote : c = '\x22'
    · subst hquote
      exact hopens value_string (localAt_string fuel) h
    by_cases hbrace : c = '\x7b'
    · subst hbrace
      exact hopens value_object (lists_fields.localAt_enclosed _ hfields) h
    by_cases hbracket : c = '['
    · subst hbracket
      exact hopens value_list (lists_items.localAt_enclosed _ hitems) h
    rw [value_eq_scalar hquote hbrace hbracket] at h
    obtain ⟨a, ha, hscalar⟩ := exists_of_scalar h
    exact ⟨a, ha, readsBack_scalar hscalar⟩

/-- **Main.** Values, and the parts of lists and objects, are read from their text alone. -/
theorem localAt_value (fuel : Nat) :
    LocalAt value fuel ∧ LocalAt items fuel ∧ LocalAt fields fuel := by
  induction fuel with
  | zero =>
    refine ⟨?_, ?_, ?_⟩
    · intro _ _ _ h
      cases h
    · intro _ _ _ h
      cases h
    · intro _ _ _ h
      cases h
  | succ fuel ih =>
    obtain ⟨hvalue, hitems, hfields⟩ := ih
    exact ⟨localAt_value_succ hitems hfields, lists_items.localAt hvalue hitems,
      lists_fields.localAt (localAt_field hvalue) hfields⟩

end SqlInterchange.Json
