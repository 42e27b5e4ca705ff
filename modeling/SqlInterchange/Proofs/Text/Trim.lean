import Mathlib.Data.List.DropRight
import SqlInterchange.Text

/-! # Trimmed text

What is left of a text when characters are dropped at its ends: it does not begin or end with one
of them, nothing else is lost, and where there is nothing to drop the text is left as it is.
-/
namespace SqlInterchange.Text

variable {p : Char → Bool}

/-! ## Dropping at the end -/

/-- A text is what is left of it, and behind that what was dropped. -/
theorem exists_dropped (p : Char → Bool) (t : Text) :
    ∃ dropped, t = dropEndWhile p t ++ dropped ∧ ∀ c ∈ dropped, p c :=
  ⟨t.rtakeWhile p, List.rdropWhile_append_rtakeWhile.symm, fun _ => List.mem_rtakeWhile_imp⟩

theorem getLast?_dropEndWhile (t : Text) : ∀ c ∈ (dropEndWhile p t).getLast?, p c = false := by
  intro c hc
  obtain ⟨hne, rfl⟩ := List.mem_getLast?_eq_getLast hc
  exact eq_false_of_ne_true (List.rdropWhile_last_not p t hne)

theorem dropEndWhile_eq_self {t : Text} (h : ∀ c ∈ t.getLast?, p c = false) :
    dropEndWhile p t = t := by
  refine List.rdropWhile_eq_self_iff.mpr fun hne => ?_
  simp [h _ (List.getLast_mem_getLast? hne)]

theorem dropEndWhile_eq_nil {t : Text} (h : ∀ c ∈ t, p c) : dropEndWhile p t = [] :=
  List.rdropWhile_eq_nil_iff.mpr h

theorem dropEndWhile_append (t : Text) {dropped : Text} (h : ∀ c ∈ dropped, p c) :
    dropEndWhile p (t ++ dropped) = dropEndWhile p t := by
  have hreverse : ∀ c ∈ dropped.reverse, p c := fun c hc => h c (List.mem_reverse.mp hc)
  rw [dropEndWhile, List.reverse_append, List.dropWhile_append_of_pos hreverse]
  rfl

/-- What is dropped at the end is behind the last character that stays. -/
theorem dropEndWhile_append_cons (s t : Text) {c : Char} (hc : p c = false) :
    dropEndWhile p (s ++ c :: t) = s ++ c :: dropEndWhile p t := by
  simp only [dropEndWhile, List.reverse_append, List.reverse_cons, List.append_assoc,
    List.dropWhile_append]
  split
  · next h => simp [hc, List.isEmpty_iff.mp h]
  · simp

theorem dropEndWhile_isPrefix (t : Text) : dropEndWhile p t <+: t := List.rdropWhile_prefix p t

/-! ## Trimming -/

theorem trimStart_eq_self {t : Text} (h : ∀ c ∈ t.head?, isBlank c = false) : trimStart t = t := by
  cases t with
  | nil => rfl
  | cons c cs => exact List.dropWhile_cons_of_neg (by simp [h c rfl])

/-- There is nothing to trim where neither end is a blank. -/
theorem trim_eq_self {t : Text} (hfirst : ∀ c ∈ t.head?, isBlank c = false)
    (hlast : ∀ c ∈ t.getLast?, isBlank c = false) : trim t = t := by
  rw [trim, trimStart_eq_self hfirst, trimEnd, dropEndWhile_eq_self hlast]

theorem head?_trimStart (t : Text) : ∀ c ∈ (trimStart t).head?, isBlank c = false := by
  intro c hc
  have h := List.head?_dropWhile_not isBlank t
  rw [show List.head? (t.dropWhile isBlank) = some c from hc] at h
  simpa using h

/-- Blanks at the start are trimmed. -/
theorem trimStart_append {blanks : Text} (h : blanks.all isBlank) (t : Text) :
    trimStart (blanks ++ t) = trimStart t :=
  List.dropWhile_append_of_pos (List.all_eq_true.mp h)

/-- A text is blanks and what is left of it. -/
theorem exists_trimStart (t : Text) : ∃ blanks, blanks.all isBlank ∧ t = blanks ++ trimStart t :=
  ⟨t.takeWhile isBlank, List.all_eq_true.mpr fun _ hc => List.mem_takeWhile_imp hc,
    List.takeWhile_append_dropWhile.symm⟩

theorem trimEnd_isPrefix (t : Text) : trimEnd t <+: t := dropEndWhile_isPrefix t

theorem trimEnd_append_cons (s t : Text) {c : Char} (hc : isBlank c = false) :
    trimEnd (s ++ c :: t) = s ++ c :: trimEnd t := dropEndWhile_append_cons s t hc

/-- What is before and behind a character that is no blank is trimmed on its own. -/
theorem trim_append_cons (s t : Text) {c : Char} (hc : isBlank c = false) :
    trim (s ++ c :: t) = trimStart s ++ c :: trimEnd t := by
  have hstart : trimStart (s ++ c :: t) = trimStart s ++ c :: t := by
    have hstop : (c :: t).dropWhile isBlank = c :: t := List.dropWhile_cons_of_neg (by simp [hc])
    rw [trimStart, trimStart, List.dropWhile_append, hstop]
    split
    · next h => rw [List.isEmpty_iff.mp h, List.nil_append]
    · rfl
  rw [trim, hstart, trimEnd_append_cons _ _ hc]

theorem getLast?_trimEnd (t : Text) : ∀ c ∈ (trimEnd t).getLast?, isBlank c = false :=
  getLast?_dropEndWhile t

/-- What is left of a text at its end begins like the text. -/
theorem head?_of_isPrefix {s t : Text} (h : s <+: t) : ∀ c ∈ s.head?, c ∈ t.head? := by
  obtain ⟨rest, rfl⟩ := h
  intro c hc
  rw [List.head?_append, show s.head? = some c from hc]
  rfl

theorem head?_trim (t : Text) : ∀ c ∈ (trim t).head?, isBlank c = false := fun c hc =>
  head?_trimStart t c (head?_of_isPrefix (trimEnd_isPrefix (trimStart t)) c hc)

theorem trim_trim (t : Text) : trim (trim t) = trim t :=
  trim_eq_self (head?_trim t) (getLast?_trimEnd _)

/-- Blanks at the end are trimmed. -/
theorem trim_append_blanks (t : Text) {blanks : Text} (h : blanks.all isBlank) :
    trim (t ++ blanks) = trim t := by
  have hall : ∀ c ∈ blanks, isBlank c := List.all_eq_true.mp h
  have hnone : blanks.dropWhile isBlank = [] := List.dropWhile_eq_nil_iff.mpr hall
  by_cases hempty : (t.dropWhile isBlank).isEmpty
  · rw [trim, trim, trimStart, trimStart, List.dropWhile_append, if_pos hempty, hnone,
      List.isEmpty_iff.mp hempty]
  · rw [trim, trim, trimStart, trimStart, List.dropWhile_append, if_neg hempty, trimEnd,
      dropEndWhile_append _ hall, trimEnd]

/-- Blanks around a text that has none at its ends are all that is trimmed. -/
theorem trim_append_append {before t behind : Text} (hbefore : before.all isBlank)
    (ht : trim t = t) (hbehind : behind.all isBlank) : trim (before ++ t ++ behind) = t := by
  rw [trim_append_blanks _ hbehind, trim, trimStart_append hbefore]
  exact ht

/-- What is stripped is all blanks, and at least one. -/
theorem stripBlanks?_eq_some_iff {t rest : Text} : stripBlanks? t = some rest ↔
    (∃ gap, gap.all isBlank ∧ gap ≠ [] ∧ t = gap ++ rest) ∧
      ∀ c ∈ rest.head?, isBlank c = false := by
  constructor
  · intro h
    cases t with
    | nil => cases h
    | cons c cs =>
      rw [stripBlanks?] at h
      split at h
      · next hc =>
        obtain rfl := Option.some.inj h
        obtain ⟨blanks, hblanks, hcs⟩ := exists_trimStart cs
        refine ⟨⟨c :: blanks, ?_, List.cons_ne_nil c blanks, ?_⟩, head?_trimStart cs⟩
        · exact Bool.and_eq_true_iff.mpr ⟨hc, hblanks⟩
        · rw [List.cons_append, ← hcs]
      · cases h
  · rintro ⟨⟨gap, hgap, hne, rfl⟩, hrest⟩
    obtain ⟨c, gap, rfl⟩ := List.exists_cons_of_ne_nil hne
    obtain ⟨hc, hgap⟩ := Bool.and_eq_true_iff.mp hgap
    rw [List.cons_append, stripBlanks?, if_pos hc, trimStart_append hgap, trimStart_eq_self hrest]

/-! ## What stays -/

theorem mem_dropWhile {t : Text} {c : Char} (hc : c ∈ t) (hp : p c = false) :
    c ∈ t.dropWhile p := by
  induction t with
  | nil => cases hc
  | cons d t ih =>
    by_cases hd : p d
    · rw [List.dropWhile_cons_of_pos hd]
      refine ih ((List.mem_cons.mp hc).resolve_left ?_)
      rintro rfl
      exact Bool.false_ne_true (hp.symm.trans hd)
    · rwa [List.dropWhile_cons_of_neg hd]

theorem mem_dropEndWhile {t : Text} {c : Char} (hc : c ∈ t) (hp : p c = false) :
    c ∈ t.dropEndWhile p :=
  List.mem_reverse.mpr (mem_dropWhile (List.mem_reverse.mpr hc) hp)

theorem mem_trim {t : Text} {c : Char} (hc : c ∈ t) (hblank : isBlank c = false) : c ∈ trim t :=
  mem_dropEndWhile (mem_dropWhile hc hblank) hblank

end SqlInterchange.Text
