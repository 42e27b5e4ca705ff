import Mathlib.Data.List.DropRight
import SqlInterchange.Proofs.Except
import SqlInterchange.Proofs.Json.Numbers

/-! # Reading by steps

Lists and objects are read alike: an opening bracket, then parts with commas between them, up to
the closing bracket.  A part of an object is a name and a value (`field`).  Here it is said once
what one step of such a reading does (`Lists`), whatever the parts are and with whatever fuel: it
stops where its part stops, it ends behind the closing bracket, or it goes on behind a comma with
one step less of fuel.
-/
namespace SqlInterchange.Json

/-! ## Blanks -/

theorem isSpace_cases {c : Char} (h : isSpace c) : c = ' ' ∨ c = '\t' ∨ c = '\n' ∨ c = '\r' := by
  simpa only [isSpace, Bool.or_eq_true, beq_iff_eq, or_assoc] using h

theorem skipSpace_append {gap t : Text} (h : ∀ c ∈ gap, isSpace c) :
    skipSpace (gap ++ t) = skipSpace t := List.dropWhile_append_of_pos h

theorem skipSpace_cons {c : Char} (h : isSpace c = false) (t : Text) :
    skipSpace (c :: t) = c :: t := List.dropWhile_cons_of_neg (by simp [h])

/-- A text is blanks and what follows them. -/
theorem exists_gap (t : Text) : ∃ gap, t = gap ++ skipSpace t ∧ ∀ c ∈ gap, isSpace c :=
  ⟨t.takeWhile isSpace, List.takeWhile_append_dropWhile.symm, fun _ hc => List.mem_takeWhile_imp hc⟩

theorem skipSpace_skipSpace (t : Text) : skipSpace (skipSpace t) = skipSpace t :=
  List.dropWhile_idempotent _ _

/-- A text that starts with no blank starts so whatever is behind it. -/
theorem skipSpace_append_of_ne_nil {u rest : Text} (hne : u ≠ [])
    (h : skipSpace (u ++ rest) = u ++ rest) (rest' : Text) :
    skipSpace (u ++ rest') = u ++ rest' := by
  obtain ⟨c, cs, rfl⟩ := List.exists_cons_of_ne_nil hne
  have hhead := List.head?_dropWhile_not isSpace (c :: cs ++ rest)
  rw [show (c :: cs ++ rest).dropWhile isSpace = c :: cs ++ rest from h] at hhead
  exact skipSpace_cons (by simpa using hhead) _

theorem ends_cons {c : Char} (h : c.isDigit = false ∧ c ≠ '.' ∧ c ≠ 'e' ∧ c ≠ 'E') (t : Text) :
    Ends (c :: t) := by
  rintro _ ⟨⟩
  exact h

/-- No number goes on with blanks. -/
theorem ends_gap_append {gap t : Text} (hgap : ∀ c ∈ gap, isSpace c) (h : Ends t) :
    Ends (gap ++ t) := by
  cases gap with
  | nil => exact h
  | cons c gap =>
    rcases isSpace_cases (hgap c (List.mem_cons_self ..)) with rfl | rfl | rfl | rfl
    all_goals exact ends_cons (by decide) _

/-- Whether a text is read as something, before every text with which no number goes on, as soon as
there is fuel for it. -/
def ReadsBy {β : Type} (run : Nat → Text → Reading (β × Text)) (a : Text) (x : β) : Prop :=
  ∀ fuel rest, 2 * a.length ≤ fuel → Ends rest → run fuel (a ++ rest) = .ok (x, rest)

/-! ## Parts between brackets -/

section Lists

variable {α : Type}

/-- Parts up to a closing bracket, the first one read by `one`, the ones behind a comma by
`others`. -/
def listed (one : Text → Reading (α × Text)) (others : Text → Reading (List α × Text))
    (closing : Char) (t : Text) : Reading (List α × Text) := do
  let (a, after) ← one t
  let behind := skipSpace after
  if behind.head? = some closing then .ok ([a], behind.tail)
  else if behind.head? = some ',' then
    let (as, rest) ← others (skipSpace behind.tail)
    .ok (a :: as, rest)
  else complain .expectingComma behind

/-- What stands behind an opening bracket: the closing one, or parts up to it. -/
def enclosed (parts : Text → Reading (List α × Text)) (closing : Char) (make : List α → Value)
    (t : Text) : Reading (Value × Text) :=
  let behind := skipSpace t
  if behind.head? = some closing then .ok (make [], behind.tail)
  else (parts behind).map fun (as, rest) => (make as, rest)

/-- Whether `run` reads parts up to a closing bracket, each of them by `one`. -/
structure Lists (one : Nat → Text → Reading (α × Text))
    (run : Nat → Text → Reading (List α × Text)) (closing : Char) : Prop where
  closes : isSpace closing = false ∧
    closing.isDigit = false ∧ closing ≠ '.' ∧ closing ≠ 'e' ∧ closing ≠ 'E'
  closing_ne : closing ≠ ',' ∧ closing ≠ '-'
  zero : ∀ t, ∃ stop, run 0 t = .error stop
  succ : ∀ fuel t, run (fuel + 1) t = listed (one fuel) (run fuel) closing t

namespace Lists

variable {one : Nat → Text → Reading (α × Text)} {run : Nat → Text → Reading (List α × Text)}
  {closing : Char} {fuel : Nat} {t after more rest gap : Text} {a : α} {stop : Stop}

theorem run_of_error (h : Lists one run closing) (hone : one fuel t = .error stop) :
    run (fuel + 1) t = .error stop := by
  rw [h.succ, listed, hone]
  rfl

theorem run_last (h : Lists one run closing) (hone : one fuel t = .ok (a, after))
    (hafter : skipSpace after = closing :: rest) : run (fuel + 1) t = .ok ([a], rest) := by
  rw [h.succ, listed, hone]
  simp only [bind, Except.bind, hafter, List.head?_cons, if_true, List.tail_cons]

theorem run_more (h : Lists one run closing) (hone : one fuel t = .ok (a, after))
    (hafter : skipSpace after = ',' :: more) : run (fuel + 1) t =
      (run fuel (skipSpace more)).map fun (as, rest) => (a :: as, rest) := by
  have hother : some ',' ≠ some closing := fun heq => h.closing_ne.1 (Option.some.inj heq).symm
  rw [h.succ, listed, hone]
  simp only [bind, Except.bind, hafter, List.head?_cons, if_neg hother, if_true, List.tail_cons]
  cases run fuel (skipSpace more) with
  | error stop => rfl
  | ok result => rfl

/-- Behind a part stands the closing bracket or a comma, or else there is a complaint. -/
theorem run_cases (h : Lists one run closing) (hone : one fuel t = .ok (a, after)) :
    (∃ rest, skipSpace after = closing :: rest) ∨ (∃ more, skipSpace after = ',' :: more) ∨
      run (fuel + 1) t = complain .expectingComma (skipSpace after) := by
  by_cases hclosing : (skipSpace after).head? = some closing
  · exact .inl (List.head?_eq_some_iff.mp hclosing)
  by_cases hcomma : (skipSpace after).head? = some ','
  · exact .inr (.inl (List.head?_eq_some_iff.mp hcomma))
  · refine .inr (.inr ?_)
    rw [h.succ, listed, hone]
    simp only [bind, Except.bind, if_neg hclosing, if_neg hcomma]

theorem skipSpace_closing (h : Lists one run closing) (hgap : ∀ c ∈ gap, isSpace c) (rest : Text) :
    skipSpace (gap ++ closing :: rest) = closing :: rest :=
  (skipSpace_append hgap).trans (skipSpace_cons h.closes.1 rest)

end Lists

variable {parts : Text → Reading (List α × Text)} {closing : Char} {make : List α → Value}
  {t rest : Text}

theorem enclosed_of_closing (h : skipSpace t = closing :: rest) :
    enclosed parts closing make t = .ok (make [], rest) := by
  simp only [enclosed, h, List.head?_cons, if_true, List.tail_cons]

theorem enclosed_of_ne (h : (skipSpace t).head? ≠ some closing) :
    enclosed parts closing make t =
      (parts (skipSpace t)).map fun (as, rest) => (make as, rest) := by
  simp only [enclosed, if_neg h]

end Lists

/-! ## Values -/

/-- A name and the value behind it. -/
def field (fuel : Nat) (t : Text) : Reading ((Text × Value) × Text) := do
  let (key, after) ← name t
  let (v, after) ← value fuel after
  .ok ((key, v), after)

theorem lists_items : Lists value items ']' where
  closes := by decide
  closing_ne := by decide
  zero t := ⟨_, rfl⟩
  succ fuel t := by
    rw [items, listed]
    cases value fuel t with
    | error stop => rfl
    | ok result =>
      simp only [bind, Except.bind]
      cases skipSpace result.2 with
      | nil => rfl
      | cons c more =>
        by_cases hclosing : c = ']'
        · rw [hclosing]
          rfl
        by_cases hcomma : c = ','
        · rw [hcomma]
          rfl
        simp [hclosing, hcomma]

theorem lists_fields : Lists field fields '\x7d' where
  closes := by decide
  closing_ne := by decide
  zero t := ⟨_, rfl⟩
  succ fuel t := by
    rw [fields, listed, field]
    cases name t with
    | error stop => rfl
    | ok named =>
      simp only [bind, Except.bind]
      cases value fuel named.2 with
      | error stop => rfl
      | ok result =>
        simp only
        cases skipSpace result.2 with
        | nil => rfl
        | cons c more =>
          by_cases hclosing : c = '\x7d'
          · rw [hclosing]
            rfl
          by_cases hcomma : c = ','
          · rw [hcomma]
            rfl
          simp [hclosing, hcomma]

theorem value_list (fuel : Nat) (t : Text) :
    value (fuel + 1) ('[' :: t) = enclosed (items fuel) ']' .list t := by
  rw [value, if_neg (by decide), if_neg (by decide), if_pos rfl, enclosed]
  cases skipSpace t with
  | nil => rfl
  | cons c more =>
    by_cases hclosing : c = ']'
    · rw [hclosing]
      rfl
    · simp [hclosing]

theorem value_object (fuel : Nat) (t : Text) :
    value (fuel + 1) ('\x7b' :: t) = enclosed (fields fuel) '\x7d'
      (fun fs => .object (OrderedMap.ofList fs).entries) t := by
  rw [value, if_neg (by decide), if_pos rfl, enclosed]
  cases skipSpace t with
  | nil => rfl
  | cons c more =>
    by_cases hclosing : c = '\x7d'
    · rw [hclosing]
      rfl
    · simp [hclosing]

theorem value_string (fuel : Nat) (t : Text) :
    value (fuel + 1) ('\x22' :: t) = (string t).map fun (s, rest) => (.text s, rest) := by
  rw [value, if_pos rfl]

/-- What opens neither a string nor a list nor an object is a scalar, or no value. -/
theorem value_eq_scalar {c : Char} (hquote : c ≠ '\x22') (hbrace : c ≠ '\x7b') (hbracket : c ≠ '[')
    (fuel : Nat) (cs : Text) : value (fuel + 1) (c :: cs) = scalar (c :: cs) := by
  rw [value, if_neg hquote, if_neg hbrace, if_neg hbracket]

end SqlInterchange.Json
