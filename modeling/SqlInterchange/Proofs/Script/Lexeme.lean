import Mathlib.Data.List.Basic
import SqlInterchange.Sql.Script

/-! # The lexemes of a script

What a script says, without the scanner.  A script is a sequence of *lexemes*: literals, comments
and single characters, each running as far as the text itself says.  A literal runs through the
next quote of its kind, a line comment up to the next line break, a block comment through the
first closing marker behind its opening one; what is never closed runs to the end of the text.

`Lexes` states this as a grammar on the written text.  Every text has one and only one sequence of
lexemes (`exists_lexes`, `Lexes.unique`).  The statements of a sequence of lexemes (`statements`)
are defined on the lexemes alone: cut at the semicolons, comments taken out, line breaks made
spaces, trimmed, the empty ones dropped.  The scanner, which sees one character and the one after
it, finds the same statements (`split_eq_statements`).
-/
namespace SqlInterchange.Script

/-- A lexeme of a script. -/
inductive Lexeme where
  /-- The text between two quotes of a kind. -/
  | literal (quote : Char) (body : Text)
  /-- The text behind a quote that is never closed. -/
  | openLiteral (quote : Char) (body : Text)
  /-- The text behind the marker of a line comment. -/
  | lineComment (body : Text)
  /-- The text between the markers of a block comment. -/
  | blockComment (body : Text)
  /-- The text behind the marker of a block comment that is never closed. -/
  | openComment (body : Text)
  /-- Any other character. -/
  | char (c : Char)
deriving DecidableEq

namespace Lexeme

/-- A lexeme as the script has it. -/
def spelling : Lexeme → Text
  | literal quote body => quote :: body ++ [quote]
  | openLiteral quote body => quote :: body
  | lineComment body => '-' :: '-' :: body
  | blockComment body => '/' :: '*' :: body ++ ['*', '/']
  | openComment body => '/' :: '*' :: body
  | char c => [c]

/-- Whether a lexeme can stand in front of `rest`: it opens what its kind opens, runs no further
than its first end, and stops short of it only at the end of the text. -/
def Stands (rest : Text) : Lexeme → Prop
  | literal quote body => isQuote quote ∧ quote ∉ body
  | openLiteral quote body => isQuote quote ∧ quote ∉ body ∧ rest = []
  | lineComment body =>
    (∀ c ∈ body, Text.isLineBreak c = false) ∧ ∀ c ∈ rest.head?, Text.isLineBreak c
  | blockComment body => ¬['*', '/'] <:+: body
  | openComment body => ¬['*', '/'] <:+: body ∧ rest = []
  | char c => ¬isQuote c ∧ ¬['-', '-'] <+: c :: rest ∧ ¬['/', '*'] <+: c :: rest

/-- What a lexeme leaves in its statement: literals stand as they are written, a closed block
comment and a line break count as a space, other comments as nothing. -/
def kept : Lexeme → Text
  | lineComment _ | openComment _ => []
  | blockComment _ => [' ']
  | char c => if Text.isLineBreak c then [' '] else [c]
  | l => l.spelling

/-- Whether a lexeme ends a statement. -/
def isCut (l : Lexeme) : Bool := l == char ';'

/-- The text kept of some lexemes. -/
def keptText (ls : List Lexeme) : Text := ls.flatMap kept

/-- The pieces between the semicolons, without comments. -/
def pieces (ls : List Lexeme) : List Text := (ls.splitOnP isCut).map keptText

/-- The statements that lexemes make: the pieces between the semicolons, trimmed, without the
empty ones. -/
def statements (ls : List Lexeme) : List Text := ((pieces ls).map Text.trim).filter (!·.isEmpty)

theorem spelling_ne_nil (l : Lexeme) : l.spelling ≠ [] := by
  cases l <;> simp [spelling]

end Lexeme

open Lexeme

/-- `Lexes t ls`: read from the left, the text `t` has the lexemes `ls`. -/
inductive Lexes : Text → List Lexeme → Prop
  | nil : Lexes [] []
  | cons {l : Lexeme} {rest : Text} {ls : List Lexeme} (hl : l.Stands rest)
      (hrest : Lexes rest ls) : Lexes (l.spelling ++ rest) (l :: ls)

/-! ## Every text has lexemes -/

/-- A text has a first closing marker or none. -/
theorem exists_closing (t : Text) :
    (∃ body rest, t = body ++ '*' :: '/' :: rest ∧ ¬['*', '/'] <:+: body) ∨
      ¬['*', '/'] <:+: t := by
  induction t with
  | nil => exact .inr (by simp)
  | cons c t ih =>
    by_cases hc : ['*', '/'] <+: c :: t
    · obtain ⟨rest, hrest⟩ := hc
      exact .inl ⟨[], rest, hrest.symm, by simp⟩
    · rcases ih with ⟨body, rest, rfl, hbody⟩ | ht
      · refine .inl ⟨c :: body, rest, rfl, ?_⟩
        rw [List.infix_cons_iff, not_or]
        exact ⟨fun h => hc (h.trans (List.prefix_append (c :: body) _)), hbody⟩
      · refine .inr ?_
        rw [List.infix_cons_iff, not_or]
        exact ⟨hc, ht⟩

/-- Every text that is not over has a first lexeme. -/
theorem exists_stands (c : Char) (cs : Text) :
    ∃ (l : Lexeme) (rest : Text), c :: cs = l.spelling ++ rest ∧ l.Stands rest := by
  by_cases hq : isQuote c
  · by_cases hm : c ∈ cs
    · obtain ⟨body, rest, rfl, hbody⟩ := List.eq_append_cons_of_mem hm
      exact ⟨.literal c body, rest, by simp [spelling], hq, hbody⟩
    · exact ⟨.openLiteral c cs, [], by simp [spelling], hq, hm, rfl⟩
  by_cases hline : ['-', '-'] <+: c :: cs
  · obtain ⟨t, ht⟩ := hline
    refine ⟨.lineComment (t.takeWhile (!Text.isLineBreak ·)), t.dropWhile (!Text.isLineBreak ·),
      by simp [spelling, ← ht], fun d hd => ?_, fun d hd => ?_⟩
    · simpa using (List.all_eq_true.mp List.all_takeWhile) d hd
    · have := List.head?_dropWhile_not (!Text.isLineBreak ·) t
      simpa [Option.mem_def.mp hd] using this
  by_cases hblock : ['/', '*'] <+: c :: cs
  · obtain ⟨t, ht⟩ := hblock
    rcases exists_closing t with ⟨body, rest, rfl, hbody⟩ | hopen
    · exact ⟨.blockComment body, rest, by simp [spelling, ← ht], hbody⟩
    · exact ⟨.openComment t, [], by simp [spelling, ← ht], hopen, rfl⟩
  · exact ⟨.char c, cs, rfl, hq, hline, hblock⟩

/-- **Every text has lexemes.** -/
theorem exists_lexes (t : Text) : ∃ ls, Lexes t ls := by
  induction hn : t.length using Nat.strongRecOn generalizing t with
  | ind n ih =>
    cases t with
    | nil => exact ⟨[], .nil⟩
    | cons c cs =>
      obtain ⟨l, rest, e, hl⟩ := exists_stands c cs
      have hlt : rest.length < n := by
        have hpos := List.length_pos_of_ne_nil l.spelling_ne_nil
        rw [← hn, e, List.length_append]
        omega
      obtain ⟨ls, hls⟩ := ih rest.length hlt rest rfl
      exact ⟨l :: ls, e ▸ .cons hl hls⟩

/-! ## A text has no other lexemes -/

/-- A first closing marker is at one place only. -/
theorem closing_unique {body body' rest rest' : Text} (h : ¬['*', '/'] <:+: body)
    (h' : ¬['*', '/'] <:+: body')
    (e : body ++ '*' :: '/' :: rest = body' ++ '*' :: '/' :: rest') : body = body' := by
  -- of two places one is before the other, and then the text up to the later one has the marker
  have key : ∀ {u v a r : Text}, ¬['*', '/'] <:+: u ++ a →
      '*' :: '/' :: v = a ++ '*' :: '/' :: r → a = [] := by
    intro u v a r hu ha
    rcases a with _ | ⟨x, _ | ⟨y, a⟩⟩
    · rfl
    · simp at ha
    · simp only [List.cons_append, List.cons.injEq] at ha
      obtain ⟨rfl, rfl, -⟩ := ha
      exact absurd ⟨u, a, by simp⟩ hu
  rcases List.append_eq_append_iff.mp e with ⟨a, rfl, ha⟩ | ⟨a, rfl, ha⟩
  · rw [key h' ha, List.append_nil]
  · rw [key h ha, List.append_nil]

/-- A stretch of characters with `p` ends where a character without it stands, so at one place
only. -/
theorem stretch_unique (p : Char → Bool) {body body' rest rest' : Text}
    (h : ∀ c ∈ body, p c) (hr : ∀ c ∈ rest.head?, p c = false)
    (h' : ∀ c ∈ body', p c) (hr' : ∀ c ∈ rest'.head?, p c = false)
    (e : body ++ rest = body' ++ rest') : body = body' := by
  have key : ∀ {u r : Text}, (∀ c ∈ u, p c) → (∀ c ∈ r.head?, p c = false) →
      (u ++ r).takeWhile p = u := by
    intro u r hu hr
    rw [List.takeWhile_append_of_pos hu]
    cases r with
    | nil => simp
    | cons c cs => simp [hr c rfl]
  rw [← key h hr, e, key h' hr']

/-- **The first lexeme of a text is determined by the text.** -/
theorem Lexeme.Stands.unique {l l' : Lexeme} {rest rest' : Text} (h : l.Stands rest)
    (h' : l'.Stands rest') (e : l.spelling ++ rest = l'.spelling ++ rest') :
    l = l' ∧ rest = rest' := by
  suffices l = l' by
    subst this
    exact ⟨rfl, List.append_cancel_left e⟩
  cases l <;> cases l' <;>
    simp only [spelling, List.cons_append, List.cons.injEq, List.append_assoc, List.nil_append,
      reduceCtorEq] at e ⊢
  -- two lexemes of one kind, or the closed and the open one of a kind
  case literal.literal q body q' body' =>
    obtain ⟨rfl, e⟩ := e
    have hb := stretch_unique (· != q) (fun c hc => bne_iff_ne.mpr (ne_of_mem_of_not_mem hc h.2))
      (by simp) (fun c hc => bne_iff_ne.mpr (ne_of_mem_of_not_mem hc h'.2)) (by simp) e
    rw [hb]
  case literal.openLiteral q body q' body' =>
    obtain ⟨rfl, e⟩ := e
    obtain ⟨-, hbody, rfl⟩ := h'
    rw [List.append_nil] at e
    exact hbody (by simp [← e])
  case openLiteral.literal q body q' body' =>
    obtain ⟨rfl, e⟩ := e
    obtain ⟨-, hbody, rfl⟩ := h
    rw [List.append_nil] at e
    exact hbody (by simp [e])
  case openLiteral.openLiteral q body q' body' =>
    obtain ⟨-, -, rfl⟩ := h
    obtain ⟨-, -, rfl⟩ := h'
    simpa using e
  case lineComment.lineComment body body' =>
    have hb := stretch_unique (!Text.isLineBreak ·) (by simpa using h.1) (by simpa using h.2)
      (by simpa using h'.1) (by simpa using h'.2) e.2.2
    rw [hb]
  case blockComment.blockComment body body' => simpa using closing_unique h h' e.2.2
  case blockComment.openComment body body' =>
    obtain ⟨hbody, rfl⟩ := h'
    exact hbody ⟨body, rest, by simpa using e.2.2⟩
  case openComment.blockComment body body' =>
    obtain ⟨hbody, rfl⟩ := h
    exact hbody ⟨body', rest', by simpa using e.2.2.symm⟩
  case openComment.openComment body body' =>
    obtain ⟨-, rfl⟩ := h
    obtain ⟨-, rfl⟩ := h'
    simpa using e
  -- two lexemes of different kinds do not open alike
  all_goals grind [Stands, isQuote, Identifier.backtick]

/-- **A text has one sequence of lexemes only.** -/
theorem Lexes.unique {t : Text} {ls ls' : List Lexeme} (h : Lexes t ls) (h' : Lexes t ls') :
    ls = ls' := by
  induction h generalizing ls' with
  | nil =>
    generalize ht : ([] : Text) = t at h'
    cases h' with
    | nil => rfl
    | @cons l _ _ _ _ => exact absurd (List.append_eq_nil_iff.mp ht.symm).1 l.spelling_ne_nil
  | @cons l rest ls hl _ ih =>
    generalize ht : l.spelling ++ rest = t at h'
    cases h' with
    | nil => exact absurd (List.append_eq_nil_iff.mp ht).1 l.spelling_ne_nil
    | @cons l' rest' ls' hl' hrest' =>
      obtain ⟨rfl, rfl⟩ := hl.unique hl' ht
      rw [ih hrest']

/-! ## Lexemes can be checked -/

/-- Whether a text is free of closing markers, tried at one position after the other. -/
def decidableUnclosed (t : Text) : Decidable (¬['*', '/'] <:+: t) :=
  @instDecidableNot _ (List.instDecidableIsInfixOfDecidableEq _ _)

-- the instances are named so that the characters of the text are tried, not all there are
instance : (l : Lexeme) → (rest : Text) → Decidable (l.Stands rest)
  | literal quote body, _ => inferInstanceAs (Decidable (isQuote quote ∧ quote ∉ body))
  | openLiteral quote body, rest =>
    inferInstanceAs (Decidable (isQuote quote ∧ quote ∉ body ∧ rest = []))
  | lineComment body, rest =>
    @instDecidableAnd _ _ (List.decidableBAll _ body) (Option.decidableForallMem rest.head?)
  | blockComment body, _ => decidableUnclosed body
  | openComment body, rest => @instDecidableAnd _ (rest = []) (decidableUnclosed body) inferInstance
  | char c, rest =>
    inferInstanceAs (Decidable (¬isQuote c ∧ ¬['-', '-'] <+: c :: rest ∧ ¬['/', '*'] <+: c :: rest))

/-- Whether a text is these lexemes, read off it from the left. -/
def isLexedAs : Text → List Lexeme → Bool
  | t, [] => t.isEmpty
  | t, l :: ls =>
    match t.dropPrefix? l.spelling with
    | some rest => decide (l.Stands rest) && isLexedAs rest ls
    | none => false

theorem isLexedAs_iff {t : Text} {ls : List Lexeme} : isLexedAs t ls = true ↔ Lexes t ls := by
  induction ls generalizing t with
  | nil =>
    rw [isLexedAs, List.isEmpty_iff]
    constructor
    · rintro rfl
      exact .nil
    · intro h
      cases h
      rfl
  | cons l ls ih =>
    rw [isLexedAs]
    constructor
    · intro h
      split at h
      · next rest hrest =>
        obtain ⟨spelling, rfl, hspelling⟩ := List.dropPrefix?_eq_some_iff.mp hrest
        obtain ⟨hl, hls⟩ := Bool.and_eq_true_iff.mp h
        rw [beq_iff_eq.mp hspelling]
        exact .cons (of_decide_eq_true hl) (ih.mp hls)
      · cases h
    · intro h
      cases h with
      | @cons _ rest _ hl hrest =>
        rw [List.dropPrefix?_append_of_beq rest (by simp)]
        exact Bool.and_eq_true_iff.mpr ⟨decide_eq_true hl, ih.mpr hrest⟩

instance (t : Text) (ls : List Lexeme) : Decidable (Lexes t ls) :=
  decidable_of_iff _ isLexedAs_iff

end SqlInterchange.Script
