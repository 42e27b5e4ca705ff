import SqlInterchange.Proofs.Json.Local

/-! # Where a value is missing

Reading comes to a place where a value should stand and finds the end of the text, or an integer of
more digits than are read (`Stuck`).  Both stop it there, and it depends only on the text before
the place that it is reached (`Lacks`): whatever is read on the way is read from its text alone.
Strings and names stop the reading for other reasons.

So the texts at whose integers reading stops can be told without following the reader
(`read_eq_integerTooLong_iff`): cut off before such an integer, the text would lack only a value,
at its end (`ComesTo`).
-/
namespace SqlInterchange.Json

theorem BeginsInteger.exists_first {n : Nat} {t : Text} (h : BeginsInteger n t) :
    ∃ c cs, t = c :: cs ∧ (c.isDigit ∨ c = '-') := by
  obtain ⟨negative, ds, rest, rfl, ⟨hne, hdigits, -⟩, -⟩ := h
  obtain ⟨d, ds, rfl⟩ := List.exists_cons_of_ne_nil hne
  cases negative with
  | true => exact ⟨'-', _, rfl, .inr rfl⟩
  | false => exact ⟨d, _, rfl, .inl (hdigits d (List.mem_cons_self ..))⟩

/-- A text where a value should stand, and what stops the reading there. -/
inductive Stuck : Text → Stop → Prop
  | ended : Stuck [] (.complaint .expectingValue 0)
  | integer {n : Nat} {t : Text} (h : BeginsInteger n t) (hn : maxDigits < n) :
    Stuck t (.integerTooLong n)

/-- What stops the reading where a value is missing. -/
inductive Stop.IsMissing : Stop → Prop
  | ended : IsMissing (.complaint .expectingValue 0)
  | integer (n : Nat) : IsMissing (.integerTooLong n)

theorem Stop.not_isMissing {kind : Complaint} (h : kind ≠ .expectingValue) (left : Nat) :
    ¬IsMissing (.complaint kind left) := by
  intro hmissing
  cases hmissing
  exact h rfl

namespace Stuck

variable {X : Text} {stop : Stop}

theorem first (h : Stuck X stop) : ∀ c ∈ X.head?, c.isDigit ∨ c = '-' := by
  cases h with
  | ended => simp
  | integer h _ =>
    obtain ⟨c, cs, rfl, hc⟩ := h.exists_first
    rintro _ ⟨⟩
    exact hc

theorem value_eq (h : Stuck X stop) (fuel : Nat) : value (fuel + 1) X = .error stop := by
  cases h with
  | ended => rfl
  | integer h hn =>
    have hscalar := scalar_of_beginsInteger h hn
    obtain ⟨c, cs, rfl, hc⟩ := h.exists_first
    have hquote : c ≠ '\x22' := by rintro rfl; revert hc; decide
    have hbrace : c ≠ '\x7b' := by rintro rfl; revert hc; decide
    have hbracket : c ≠ '[' := by rintro rfl; revert hc; decide
    rw [value_eq_scalar hquote hbrace hbracket, hscalar]

theorem skipSpace_eq (h : Stuck X stop) : skipSpace X = X := by
  cases X with
  | nil => rfl
  | cons c cs =>
    refine skipSpace_cons ?_ cs
    by_contra hspace
    have hc := h.first c rfl
    rcases isSpace_cases (Bool.of_not_eq_false hspace) with rfl | rfl | rfl | rfl
    all_goals revert hc; decide

/-- A text that starts with no blank starts so where the reading is stuck behind it. -/
theorem skipSpace_append (h : Stuck X stop) {u rest : Text}
    (hstart : skipSpace (u ++ rest) = u ++ rest) : skipSpace (u ++ X) = u ++ X := by
  by_cases hne : u = []
  · subst hne
    exact h.skipSpace_eq
  · exact skipSpace_append_of_ne_nil hne hstart X

end Stuck

/-- Whether a text lacks a value where it ends: the reading comes to its end and is stuck by what
is behind it.  A value at its start needs one step of fuel to spare, a list of them two. -/
def Lacks {β : Type} (spare : Nat) (run : Nat → Text → Reading (β × Text)) (u : Text) : Prop :=
  ∀ {fuel X stop}, 2 * u.length + spare ≤ fuel → Stuck X stop → run fuel (u ++ X) = .error stop

/-- Whether all that stops reading with some fuel for want of a value is behind a text that lacks
it. -/
def MissesAt {β : Type} (spare : Nat) (run : Nat → Text → Reading (β × Text)) (fuel : Nat) : Prop :=
  ∀ {t stop}, run fuel t = .error stop → stop.IsMissing →
    ∃ u X, t = u ++ X ∧ Stuck X stop ∧ Lacks spare run u

/-! ## Parts between brackets -/

namespace Lists

variable {α : Type} {one : Nat → Text → Reading (α × Text)}
  {run : Nat → Text → Reading (List α × Text)} {closing : Char} {fuel : Nat}
  {p gap gap' u : Text} {a : α}

theorem lacks_first (h : Lists one run closing) (hu : Lacks 1 one u) : Lacks 2 run u := by
  intro fuel X stop hfuel hX
  obtain ⟨fuel, rfl⟩ := Nat.exists_eq_add_of_le' (show 1 ≤ fuel by omega)
  exact h.run_of_error (hu (by omega) hX)

theorem lacks_more (h : Lists one run closing) (hp : ReadsBy one p a) (hgap : ∀ c ∈ gap, isSpace c)
    (hgap' : ∀ c ∈ gap', isSpace c) (hu : Lacks 2 run u) {rest : Text}
    (hstart : skipSpace (u ++ rest) = u ++ rest) :
    Lacks 2 run (p ++ (gap ++ ',' :: (gap' ++ u))) := by
  intro fuel X stop hfuel hX
  simp only [List.length_append, List.length_cons] at hfuel
  obtain ⟨fuel, rfl⟩ := Nat.exists_eq_add_of_le' (show 1 ≤ fuel by omega)
  simp only [List.append_assoc, List.cons_append]
  rw [h.run_comma hp hgap hgap' (hX.skipSpace_append hstart) (by omega), hu (by omega) hX]
  rfl

theorem missesAt (h : Lists one run closing) (hlocal : LocalAt one fuel)
    (hone : MissesAt 1 one fuel) (hrun : MissesAt 2 run fuel) : MissesAt 2 run (fuel + 1) := by
  intro t stop hstop hmissing
  cases hfirst : one fuel t with
  | error stop' =>
    cases (h.run_of_error hfirst).symm.trans hstop
    obtain ⟨u, X, rfl, hX, hu⟩ := hone hfirst hmissing
    exact ⟨u, X, rfl, hX, h.lacks_first hu⟩
  | ok result =>
    obtain ⟨a, after⟩ := result
    obtain ⟨p, rfl, hp⟩ := hlocal hfirst
    obtain ⟨gap, hafter, hgap⟩ := exists_gap after
    rcases h.run_cases hfirst with ⟨rest, hbehind⟩ | ⟨more, hbehind⟩ | hcomplaint
    · cases (h.run_last hfirst hbehind).symm.trans hstop
    · have hmore := eq_error_of_map ((h.run_more hfirst hbehind).symm.trans hstop)
      obtain ⟨u, X, hu, hX, hlacks⟩ := hrun hmore hmissing
      obtain ⟨gap', hgapped, hgap'⟩ := exists_gap more
      have hstart := skipSpace_skipSpace more
      rw [hu] at hstart hgapped
      rw [hbehind] at hafter
      exact ⟨_, X, by simp [hafter, hgapped], hX, h.lacks_more hp hgap hgap' hlacks hstart⟩
    · cases hcomplaint.symm.trans hstop
      cases hmissing

theorem missesAt_enclosed (h : Lists one run closing) (make : List α → Value)
    (hrun : MissesAt 2 run fuel) :
    MissesAt 2 (fun fuel => enclosed (run fuel) closing make) fuel := by
  intro t stop hstop hmissing
  dsimp only at hstop
  obtain ⟨gap, ht, hgap⟩ := exists_gap t
  by_cases hclosing : (skipSpace t).head? = some closing
  · obtain ⟨rest, hbehind⟩ := List.head?_eq_some_iff.mp hclosing
    cases (enclosed_of_closing hbehind).symm.trans hstop
  · have hparts := eq_error_of_map ((enclosed_of_ne hclosing).symm.trans hstop)
    obtain ⟨u, X, hu, hX, hlacks⟩ := hrun hparts hmissing
    have hstart := skipSpace_skipSpace t
    rw [hu] at ht hstart hclosing
    refine ⟨gap ++ u, X, by rw [List.append_assoc, ← ht], hX, ?_⟩
    intro fuel X' stop' hfuel hX'
    have hskip : skipSpace (gap ++ (u ++ X')) = u ++ X' :=
      (skipSpace_append hgap).trans (hX'.skipSpace_append hstart)
    have hopen : (skipSpace (gap ++ (u ++ X'))).head? ≠ some closing := by
      rw [hskip]
      by_cases hne : u = []
      · subst hne
        intro heq
        rcases hX'.first closing heq with hdigit | hminus
        · exact Bool.false_ne_true (h.closes.2.1.symm.trans hdigit)
        · exact h.closing_ne.2 hminus
      · rwa [List.head?_append_of_ne_nil _ hne] at hclosing ⊢
    rw [List.length_append] at hfuel
    dsimp only
    rw [List.append_assoc, enclosed_of_ne hopen, hskip, hlacks (by omega) hX']
    rfl

end Lists

/-! ## Strings and names lack no value -/

theorem lowSurrogate?_eq_error {t : Text} {stop : Stop} (h : lowSurrogate? t = .error stop) :
    ¬stop.IsMissing := by
  unfold lowSurrogate? at h
  split at h
  · split at h
    · cases h
      exact Stop.not_isMissing (by decide) _
    · cases h
  · cases h

theorem unicodeEscape_eq_error {t : Text} {stop : Stop} (h : unicodeEscape t = .error stop) :
    ¬stop.IsMissing := by
  unfold unicodeEscape at h
  split at h
  · split at h
    · cases h
      exact Stop.not_isMissing (by decide) _
    · split at h
      · rcases exists_of_bind_eq_error h with hlow | ⟨low?, -, h⟩
        · exact lowSurrogate?_eq_error hlow
        · cases low? with
          | none => cases h
          | some low => cases h
      · cases h
  · cases h
    exact Stop.not_isMissing (by decide) _

theorem stringChar_eq_error {opened t : Text} {stop : Stop}
    (h : stringChar opened t = .error stop) : ¬stop.IsMissing := by
  have hread := readsChar_stringChar opened t
  rw [h] at hread
  cases hread with
  | numberStops hescape => exact unicodeEscape_eq_error hescape
  | complains _ hkind left => exact Stop.not_isMissing hkind left

theorem stringRest_eq_error {opened t : Text} {fuel : Nat} {stop : Stop}
    (h : stringRest opened fuel t = .error stop) : ¬stop.IsMissing := by
  induction fuel generalizing t with
  | zero =>
    cases h
    exact Stop.not_isMissing (by decide) _
  | succ fuel ih =>
    rcases exists_of_bind_eq_error h with hchar | ⟨⟨c?, behind⟩, -, h⟩
    · exact stringChar_eq_error hchar
    · cases c? with
      | none => cases h
      | some c =>
        rcases exists_of_bind_eq_error h with hmore | ⟨_, -, h⟩
        · exact ih hmore
        · cases h

theorem name_eq_error {t : Text} {stop : Stop} (h : name t = .error stop) : ¬stop.IsMissing := by
  cases t with
  | nil =>
    cases h
    exact Stop.not_isMissing (by decide) _
  | cons c cs =>
    by_cases hquote : c = '\x22'
    · rw [name, if_pos hquote] at h
      rcases exists_of_bind_eq_error h with hstring | ⟨⟨key, after⟩, -, h⟩
      · exact stringRest_eq_error hstring
      · dsimp only at h
        split at h
        · cases h
        · cases h
          exact Stop.not_isMissing (by decide) _
    · rw [name, if_neg hquote] at h
      cases h
      exact Stop.not_isMissing (by decide) _

/-! ## Values -/

theorem missesAt_field {fuel : Nat} (h : MissesAt 1 value fuel) : MissesAt 1 field fuel := by
  intro t stop hstop hmissing
  rcases exists_of_bind_eq_error hstop with hname | ⟨⟨key, after⟩, hname, hstop⟩
  · exact absurd hmissing (name_eq_error hname)
  rcases exists_of_bind_eq_error hstop with hvalue | ⟨_, -, hstop⟩
  · obtain ⟨hafter, b, rfl, hb⟩ := exists_of_name hname
    obtain ⟨u, X, rfl, hX, hu⟩ := h hvalue hmissing
    refine ⟨b ++ u, X, (List.append_assoc ..).symm, hX, ?_⟩
    intro fuel X' stop' hfuel hX'
    rw [List.length_append] at hfuel
    have hname' := hb (u ++ X') (hX'.skipSpace_append hafter)
    have hvalue' : value fuel (u ++ X') = .error stop' := hu (by omega) hX'
    rw [List.append_assoc, field]
    simp only [hname', bind, Except.bind, hvalue']
  · cases hstop

/-- Where nothing is read yet, a value is missing. -/
theorem lacks_nil : Lacks 1 value [] := by
  intro fuel X stop hfuel hX
  obtain ⟨fuel, rfl⟩ := Nat.exists_eq_add_of_le' (show 1 ≤ fuel by omega)
  exact hX.value_eq fuel

theorem missesAt_value_succ {fuel : Nat} (hitems : MissesAt 2 items fuel)
    (hfields : MissesAt 2 fields fuel) : MissesAt 1 value (fuel + 1) := by
  have hopens {opening : Char} {inner : Nat → Text → Reading (Value × Text)}
      (hopen : ∀ fuel t, value (fuel + 1) (opening :: t) = inner fuel t)
      (hinner : MissesAt 2 inner fuel) {t : Text} {stop : Stop}
      (h : value (fuel + 1) (opening :: t) = .error stop) (hmissing : stop.IsMissing) :
      ∃ u X, opening :: t = u ++ X ∧ Stuck X stop ∧ Lacks 1 value u := by
    rw [hopen] at h
    obtain ⟨u, X, rfl, hX, hu⟩ := hinner h hmissing
    refine ⟨opening :: u, X, rfl, hX, ?_⟩
    intro fuel X' stop' hfuel hX'
    rw [List.length_cons] at hfuel
    obtain ⟨fuel, rfl⟩ := Nat.exists_eq_add_of_le' (show 1 ≤ fuel by omega)
    rw [List.cons_append, hopen, hu (by omega) hX']
  intro t stop h hmissing
  cases t with
  | nil =>
    cases h
    exact ⟨[], [], rfl, .ended, lacks_nil⟩
  | cons c cs =>
    by_cases hquote : c = '\x22'
    · subst hquote
      rw [value_string] at h
      exact absurd hmissing (stringRest_eq_error (eq_error_of_map h))
    by_cases hbrace : c = '\x7b'
    · subst hbrace
      exact hopens value_object (lists_fields.missesAt_enclosed _ hfields) h hmissing
    by_cases hbracket : c = '['
    · subst hbracket
      exact hopens value_list (lists_items.missesAt_enclosed _ hitems) h hmissing
    rw [value_eq_scalar hquote hbrace hbracket] at h
    rcases scalar_eq_error h with rfl | ⟨n, rfl, hn, hbegins⟩
    · cases hmissing
    · exact ⟨[], c :: cs, rfl, .integer hbegins hn, lacks_nil⟩

/-- Without fuel only the end of a text is a missing value. -/
theorem eq_nil_of_isMissing {t : Text}
    (h : Stop.IsMissing (.complaint .expectingValue t.length)) : t = [] := by
  generalize hleft : t.length = left at h
  cases h
  exact List.length_eq_zero_iff.mp hleft

theorem missesAt_value (fuel : Nat) :
    MissesAt 1 value fuel ∧ MissesAt 2 items fuel ∧ MissesAt 2 fields fuel := by
  induction fuel with
  | zero =>
    refine ⟨?_, ?_, ?_⟩
    · intro t stop h hmissing
      cases h
      obtain rfl := eq_nil_of_isMissing hmissing
      exact ⟨[], [], rfl, .ended, lacks_nil⟩
    · intro t stop h hmissing
      cases h
      obtain rfl := eq_nil_of_isMissing hmissing
      exact ⟨[], [], rfl, .ended, lists_items.lacks_first lacks_nil⟩
    · intro t stop h hmissing
      cases h
      cases hmissing
  | succ fuel ih =>
    obtain ⟨hvalue, hitems, hfields⟩ := ih
    obtain ⟨hlocal, -, -⟩ := localAt_value fuel
    exact ⟨missesAt_value_succ hitems hfields, lists_items.missesAt hlocal hvalue hitems,
      lists_fields.missesAt (localAt_field hlocal) (missesAt_field hvalue) hfields⟩

/-! ## Texts -/

/-- Whether reading a text comes to an integer of so many digits, more than are read: what stands
before the integer lacks only a value, at its end. -/
def ComesTo (n : Nat) (t : Text) : Prop :=
  ∃ before rest, t = before ++ rest ∧ read before = .error (.complaint .expectingValue 0) ∧
    maxDigits < n ∧ BeginsInteger n rest

/-- A text that is an integer and nothing else comes to it. -/
theorem comesTo_of_isWhole {ws : Text} (hws : IsWhole ws) (hlength : maxDigits < ws.length) :
    ComesTo ws.length ws := by
  have hends : EndsDigits [] := by simp [EndsDigits]
  exact ⟨[], ws, rfl, rfl, hlength, false, ws, [], (List.append_nil ws).symm, hws, rfl, hends,
    rfl, rfl⟩

theorem read_eq_error_iff {t : Text} {stop : Stop} (hmissing : stop.IsMissing) :
    read t = .error stop ↔ t.head? ≠ some '\ufeff' ∧
      value (2 * (skipSpace t).length + 2) (skipSpace t) = .error stop := by
  constructor
  · intro h
    rw [read] at h
    split at h
    · cases h
      cases hmissing
    · next hmark =>
      rcases exists_of_bind_eq_error h with hvalue | ⟨⟨v, after⟩, -, h⟩
      · exact ⟨hmark, hvalue⟩
      · dsimp only at h
        split at h
        · cases h
        · cases h
          cases hmissing
  · rintro ⟨hmark, hvalue⟩
    rw [read, if_neg hmark]
    simp only [bind, Except.bind, hvalue]

/-- Where a value is missing, cutting the text off there leaves one that lacks only a value. -/
theorem exists_of_read {t : Text} {stop : Stop} (h : read t = .error stop)
    (hmissing : stop.IsMissing) : ∃ before X, t = before ++ X ∧ Stuck X stop ∧
      read before = .error (.complaint .expectingValue 0) := by
  obtain ⟨hmark, hvalue⟩ := (read_eq_error_iff hmissing).mp h
  obtain ⟨u, X, hu, hX, hlacks⟩ := (missesAt_value _).1 hvalue hmissing
  obtain ⟨gap, ht, hgap⟩ := exists_gap t
  have hstart := skipSpace_skipSpace t
  rw [hu] at ht hstart
  have hskip : skipSpace (gap ++ u) = u := by
    have hended := Stuck.ended.skipSpace_append hstart
    rwa [List.append_nil, ← skipSpace_append hgap] at hended
  have hended : value (2 * u.length + 2) (u ++ []) = _ := hlacks (by omega) .ended
  rw [List.append_nil] at hended
  have hbefore : (gap ++ u).head? ≠ some '\ufeff' := by
    intro hhead
    refine hmark ?_
    rw [ht, ← List.append_assoc, List.head?_append, hhead]
    rfl
  exact ⟨gap ++ u, X, by rw [List.append_assoc, ← ht], hX,
    (read_eq_error_iff .ended).mpr ⟨hbefore, by rw [hskip, hended]⟩⟩

/-- A text that lacks only a value, at its end, is stuck by what is behind it. -/
theorem read_append_of_stuck {before X : Text} {stop : Stop} (hX : Stuck X stop)
    (hmissing : stop.IsMissing) (h : read before = .error (.complaint .expectingValue 0)) :
    read (before ++ X) = .error stop := by
  obtain ⟨hmark, hvalue⟩ := (read_eq_error_iff .ended).mp h
  obtain ⟨u, _, hu, hended, hlacks⟩ := (missesAt_value _).1 hvalue .ended
  obtain ⟨gap, hgapped, hgap⟩ := exists_gap before
  have hstart := skipSpace_skipSpace before
  rw [hu] at hgapped hstart
  cases hended
  rw [List.append_nil] at hgapped
  have hskip : skipSpace (before ++ X) = u ++ X := by
    rw [hgapped, List.append_assoc, skipSpace_append hgap, hX.skipSpace_append hstart]
  have hmark' : (before ++ X).head? ≠ some '\ufeff' := by
    rw [List.head?_append]
    intro hhead
    rcases Option.or_eq_some_iff.mp hhead with hhead | ⟨-, hhead⟩
    · exact hmark hhead
    · have hfirst := hX.first _ hhead
      revert hfirst
      decide
  refine (read_eq_error_iff hmissing).mpr ⟨hmark', ?_⟩
  rw [hskip]
  refine hlacks ?_ hX
  rw [List.length_append]
  omega

/-- **Main.** Reading stops at an integer that is too long just if it comes to one. -/
theorem read_eq_integerTooLong_iff {t : Text} {n : Nat} :
    read t = .error (.integerTooLong n) ↔ ComesTo n t := by
  constructor
  · intro h
    obtain ⟨before, rest, ht, hrest, hbefore⟩ := exists_of_read h (.integer n)
    cases hrest with
    | integer hbegins hn => exact ⟨before, rest, ht, hbefore, hn, hbegins⟩
  · rintro ⟨before, rest, rfl, hbefore, hn, hbegins⟩
    exact read_append_of_stuck (.integer hbegins hn) (.integer n) hbefore

end SqlInterchange.Json
