import SqlInterchange.Proofs.Statement.Rendered

/-! # Names come back

A name that is written bare begins with a letter, so there are neither blanks nor delimiters around
it to be taken off.  Any other name stands between back-ticks, and these are what reading takes off,
whatever the name itself looks like: its own back-ticks were written twice, and two that stand side
by side are made one from the left, so that a run of them has its length again.
-/
namespace SqlInterchange.Identifier

@[simp] theorem undouble_cons_cons_self (quote : Char) (t : Text) :
    undouble quote (quote :: quote :: t) = quote :: undouble quote t := by
  simp [undouble]

theorem undouble_cons_of_ne {quote c : Char} (h : c ≠ quote) (t : Text) :
    undouble quote (c :: t) = c :: undouble quote t := by
  cases t with
  | nil => rfl
  | cons d t => rw [undouble, if_neg (fun hboth => h hboth.1)]

/-- **Doubled quotes are undone**, in runs of whatever length. -/
@[simp] theorem undouble_double (quote : Char) (t : Text) :
    undouble quote (double quote t) = t := by
  induction t with
  | nil => rfl
  | cons c t ih =>
    by_cases h : c = quote
    · rw [h, double_cons_self, undouble_cons_cons_self, ih]
    · rw [double_cons_of_ne h, undouble_cons_of_ne h, ih]

/-- A letter opens no delimiters. -/
theorem closing?_of_isAlpha {c : Char} (h : c.isAlpha) : closing? c = none := by
  have hbacktick : c ≠ backtick := by rintro rfl; exact absurd h (by decide)
  have hquotation : c ≠ '\x22' := by rintro rfl; exact absurd h (by decide)
  have hbracket : c ≠ '[' := by rintro rfl; exact absurd h (by decide)
  simp [closing?, hbacktick, hquotation, hbracket]

/-- A bare name stands for itself. -/
theorem unescape_of_isBare {name : Text} (h : isBare name) : unescape name = name := by
  have hink : ∀ c ∈ name, Text.isBlank c = false := fun c hc =>
    Text.isBlank_of_isAlphanum (isAlphanum_of_isBare h c hc)
  have htrim : Text.trim name = name :=
    Text.trim_eq_self (fun c hc => hink c (List.mem_of_head? hc))
      fun c hc => hink c (List.mem_of_getLast? hc)
  rw [unescape, htrim]
  cases name with
  | nil => rfl
  | cons c cs =>
    have hopens : closing? c = none := closing?_of_isAlpha (Bool.and_eq_true_iff.mp h).1
    simp only [hopens]

/-- What stands between quotes is the name, whatever it looks like. -/
theorem unescape_quoted {quote : Char} (h : closing? quote = some quote) (name : Text) :
    unescape (quote :: double quote name ++ [quote]) = name := by
  have hkind : quote = backtick ∨ quote = '\x22' := by
    rw [closing?] at h
    split at h
    · assumption
    · split at h
      · next hbracket =>
        rw [hbracket] at h
        exact absurd h (by decide)
      · cases h
  have hblank : Text.isBlank quote = false := by rcases hkind with rfl | rfl <;> rfl
  have hinside : quote ≠ ']' := by rcases hkind with rfl | rfl <;> decide
  have htrim : Text.trim (quote :: double quote name ++ [quote]) =
      quote :: (double quote name ++ [quote]) := by
    refine Text.trim_eq_self (fun c hc => ?_) fun c hc => ?_
    · obtain rfl : quote = c := Option.some.inj hc
      exact hblank
    · rw [List.getLast?_concat] at hc
      obtain rfl : quote = c := Option.some.inj hc
      exact hblank
  rw [unescape, htrim]
  simp only [h, List.getLast?_concat, List.dropLast_concat, if_pos]
  rw [inside, if_neg hinside, undouble_double]

theorem unescape_escape (name : Text) : unescape (escape name) = name := by
  rw [escape]
  split
  · next h => exact unescape_of_isBare h
  · exact unescape_quoted (by decide) name

/-- **Main.** A written name is read as the name, whatever characters it has; so different names
are written differently. -/
theorem escape_is_reversible :
    (∀ name, unescape (escape name) = name) ∧ Function.Injective escape :=
  ⟨unescape_escape, Function.LeftInverse.injective unescape_escape⟩

end SqlInterchange.Identifier
