import SqlInterchange.Proofs.Script.Lexeme

/-! # The scanner reads lexemes

The scanner goes through a script one character at a time, in one of six modes, with one character
of lookahead.  Between two lexemes it is always in the plain mode, and from there it takes a whole
lexeme and comes back to it, whatever follows: a semicolon ends the piece, and every other lexeme
leaves in it just what it keeps (`piecesFrom_spelling`).  Therefore the pieces of a script are the
pieces of its lexemes, and its statements are their statements (`split_eq_statements`).
-/
namespace SqlInterchange.Script

open Lexeme

/-! ## Pieces -/

@[simp] theorem prepend_cons (kept piece : Text) (pieces : List Text) :
    prepend kept (piece :: pieces) = (kept ++ piece) :: pieces := rfl

theorem prepend_ne_nil (kept : Text) (pieces : List Text) : prepend kept pieces ≠ [] := by
  cases pieces <;> simp [prepend]

theorem prepend_prepend (s t : Text) (pieces : List Text) :
    prepend s (prepend t pieces) = prepend (s ++ t) pieces := by
  cases pieces <;> simp [prepend]

theorem prepend_nil {pieces : List Text} (h : pieces ≠ []) : prepend [] pieces = pieces := by
  cases pieces with
  | nil => exact absurd rfl h
  | cons piece pieces => rfl

theorem prepend_eq_modifyHead {pieces : List Text} (h : pieces ≠ []) (kept : Text) :
    prepend kept pieces = pieces.modifyHead (kept ++ ·) := by
  cases pieces with
  | nil => exact absurd rfl h
  | cons piece pieces => rfl

@[simp] theorem piecesFrom_nil (mode : Mode) : piecesFrom mode [] = [[]] := rfl

theorem piecesFrom_cut {mode : Mode} {c : Char} {cs : Text} (h : step mode c cs.head? = .cut) :
    piecesFrom mode (c :: cs) = [] :: piecesFrom .plain cs := by
  rw [piecesFrom, h]

theorem piecesFrom_keep (mode : Mode) (kept : Text) (mode' : Mode) {c : Char} {cs : Text}
    (h : step mode c cs.head? = .keep kept mode') :
    piecesFrom mode (c :: cs) = prepend kept (piecesFrom mode' cs) := by
  rw [piecesFrom, h]

theorem piecesFrom_ne_nil (mode : Mode) (t : Text) : piecesFrom mode t ≠ [] := by
  cases t with
  | nil => simp
  | cons c cs =>
    rw [piecesFrom]
    split
    · simp
    · exact prepend_ne_nil _ _

/-! ## What a character does outside lexemes -/

theorem plainStep_quote {q : Char} (h : isQuote q) (next? : Option Char) :
    plainStep q next? = .keep [q] (.literal q) := by
  have hq : q = '\x27' ∨ q = '\x22' ∨ q = '\x60' := by
    simpa [isQuote, Identifier.backtick, or_assoc] using h
  rcases hq with rfl | rfl | rfl <;> rfl

theorem plainStep_lineBreak {c : Char} (h : Text.isLineBreak c) (next? : Option Char) :
    plainStep c next? = .keep [' '] .plain := by
  have hc : c = '\n' ∨ c = '\r' := by simpa [Text.isLineBreak] using h
  rcases hc with rfl | rfl <;> rfl

/-- A character that is a lexeme of its own ends the statement or is kept. -/
theorem plainStep_char {c : Char} {rest : Text} (h : (char c).Stands rest) :
    plainStep c rest.head? = if (char c).isCut then .cut else .keep (char c).kept .plain := by
  obtain ⟨hquote, hline, hblock⟩ := h
  have hmarker : ∀ {a b : Char}, ¬[a, b] <+: c :: rest → ¬(c = a ∧ rest.head? = some b) := by
    rintro a b hn ⟨rfl, hb⟩
    obtain ⟨cs, rfl⟩ := List.head?_eq_some_iff.mp hb
    exact hn ⟨cs, rfl⟩
  rw [plainStep, if_neg (hmarker hline), if_neg (hmarker hblock)]
  by_cases hcut : c = ';'
  · simp [isCut, hcut]
  · by_cases hbreak : Text.isLineBreak c <;> simp [isCut, kept, hcut, hbreak, hquote]

/-- The scanner looks ahead only for what completes a marker. -/
theorem step_before (mode : Mode) (d : Char) {c : Char} (hc : c ∉ ['-', '*', '/']) :
    step mode d (some c) = step mode d none := by
  simp only [List.mem_cons, List.not_mem_nil, or_false, not_or] at hc
  cases mode <;> simp [step, plainStep, hc]

/-! ## Runs of the scanner -/

/-- `Takes rest mode t kept mode'`: in front of `rest`, the scanner goes through `t` from one mode to
another and ends no statement; the statement gets `kept`. -/
inductive Takes (rest : Text) : Mode → Text → Text → Mode → Prop
  | nil (mode : Mode) : Takes rest mode [] [] mode
  | cons {mode mode'' : Mode} {c : Char} {cs kept' : Text} (kept : Text) (mode' : Mode)
    (h : step mode c (cs ++ rest).head? = .keep kept mode')
    (hcs : Takes rest mode' cs kept' mode'') : Takes rest mode (c :: cs) (kept ++ kept') mode''

namespace Takes

variable {rest s t kept kept' : Text} {mode mode' mode'' : Mode}

theorem single {c : Char} (h : step mode c rest.head? = .keep kept mode') :
    Takes rest mode [c] kept mode' := by
  have h' : step mode c ([] ++ rest).head? = .keep kept mode' := h
  simpa using Takes.cons kept mode' h' (.nil mode')

theorem append (hs : Takes (t ++ rest) mode s kept mode') (ht : Takes rest mode' t kept' mode'') :
    Takes rest mode (s ++ t) (kept ++ kept') mode'' := by
  induction hs with
  | nil mode => exact ht
  | @cons mode _ c cs _ kept mode' h _ ih =>
    rw [List.append_assoc]
    exact .cons kept mode' (by rwa [← List.append_assoc] at h) (ih ht)

theorem piecesFrom_eq (h : Takes rest mode t kept mode') :
    piecesFrom mode (t ++ rest) = prepend kept (piecesFrom mode' rest) := by
  induction h with
  | nil mode => exact (prepend_nil (piecesFrom_ne_nil mode rest)).symm
  | cons kept mode' h _ ih => rw [List.cons_append, piecesFrom_keep _ _ _ h, ih, prepend_prepend]

/-- Inside a literal everything is copied but its quote. -/
theorem literal {q : Char} {body : Text} (h : q ∉ body) (rest : Text) :
    Takes rest (.literal q) body body (.literal q) := by
  induction body with
  | nil => exact .nil _
  | cons c body ih =>
    obtain ⟨hc, hbody⟩ := not_or.mp (List.mem_cons.not.mp h)
    exact .cons [c] (.literal q) (by simp [step, Ne.symm hc]) (ih hbody)

/-- A line comment leaves nothing. -/
theorem lineComment {body : Text} (h : ∀ c ∈ body, Text.isLineBreak c = false) (rest : Text) :
    Takes rest .lineComment body [] .lineComment := by
  induction body with
  | nil => exact .nil _
  | cons c body ih =>
    obtain ⟨hc, hbody⟩ := List.forall_mem_cons.mp h
    exact .cons [] .lineComment (by simp [step, hc]) (ih hbody)

/-- A block comment leaves nothing up to its closing marker. -/
theorem blockComment {body : Text} (h : ¬['*', '/'] <:+: body) (hrest : rest.head? ≠ some '/') :
    Takes rest .blockComment body [] .blockComment := by
  induction body with
  | nil => exact .nil _
  | cons c body ih =>
    have hopen : ¬(c = '*' ∧ (body ++ rest).head? = some '/') := by
      rintro ⟨rfl, hhead⟩
      cases body with
      | nil => exact hrest hhead
      | cons d body => exact h ⟨[], body, by simpa using hhead.symm⟩
    exact .cons [] .blockComment (by rw [step, if_neg hopen])
      (ih fun hi => h (hi.trans (List.suffix_cons c body).isInfix))

end Takes

/-! ## The scanner and the grammar -/

/-- The mode that a lexeme leaves the scanner in. -/
def Lexeme.leaves : Lexeme → Mode
  | openLiteral quote _ => .literal quote
  | lineComment _ => .lineComment
  | openComment _ => .blockComment
  | _ => .plain

/-- **From the plain mode the scanner takes a whole lexeme**, if it does not end a statement. -/
theorem takes_spelling {l : Lexeme} {rest : Text} (h : l.Stands rest) (hcut : l.isCut = false) :
    Takes rest .plain l.spelling l.kept l.leaves := by
  cases l with
  | literal q body =>
    obtain ⟨hquote, hbody⟩ := h
    have hclose : Takes rest (.literal q) [q] [q] .plain := .single (by simp [step])
    exact .cons [q] (.literal q) (plainStep_quote hquote _) ((Takes.literal hbody _).append hclose)
  | openLiteral q body =>
    obtain ⟨hquote, hbody, rfl⟩ := h
    exact .cons [q] (.literal q) (plainStep_quote hquote _) (.literal hbody [])
  | lineComment body =>
    exact .cons [] .lineComment rfl (.cons [] .lineComment rfl (.lineComment h.1 rest))
  | blockComment body =>
    have hclose : Takes rest .blockComment ['*', '/'] [' '] .plain :=
      .cons [' '] .closing rfl (.single rfl)
    exact .cons [] .opening rfl
      (.cons [] .blockComment rfl ((Takes.blockComment h (by simp)).append hclose))
  | openComment body =>
    obtain ⟨hbody, rfl⟩ := h
    exact .cons [] .opening rfl (.cons [] .blockComment rfl (.blockComment hbody (by simp)))
  | char c =>
    have hstep := plainStep_char h
    rw [hcut] at hstep
    exact .single hstep

/-- What follows a lexeme is read as it is in the plain mode. -/
theorem piecesFrom_leaves {l : Lexeme} {rest : Text} (h : l.Stands rest) :
    piecesFrom l.leaves rest = piecesFrom .plain rest := by
  cases l with
  | lineComment body =>
    cases rest with
    | nil => rfl
    | cons c cs =>
      -- the line break that ends the comment is not part of it
      have hc : Text.isLineBreak c = true := h.2 c rfl
      rw [piecesFrom_keep .plain _ _ (plainStep_lineBreak hc _)]
      exact piecesFrom_keep .lineComment _ _ (by simp [step, hc])
  | openLiteral q body =>
    obtain ⟨-, -, rfl⟩ := h
    rfl
  | openComment body =>
    obtain ⟨-, rfl⟩ := h
    rfl
  | literal q body => rfl
  | blockComment body => rfl
  | char c => rfl

/-- A semicolon ends the piece, every other lexeme leaves in it what it keeps. -/
theorem piecesFrom_spelling {l : Lexeme} {rest : Text} (h : l.Stands rest) :
    piecesFrom .plain (l.spelling ++ rest) =
      if l.isCut then [] :: piecesFrom .plain rest
      else prepend l.kept (piecesFrom .plain rest) := by
  by_cases hcut : l.isCut
  · rw [if_pos hcut, eq_of_beq hcut]
    exact piecesFrom_cut rfl
  · rw [if_neg hcut, (takes_spelling h (by simpa using hcut)).piecesFrom_eq, piecesFrom_leaves h]

/-- The pieces of a script are the pieces of its lexemes. -/
theorem piecesFrom_eq_pieces {t : Text} {ls : List Lexeme} (h : Lexes t ls) :
    piecesFrom .plain t = pieces ls := by
  -- the induction follows the lexemes, one of which the scanner takes at a time
  induction h with
  | nil => simp [pieces, keptText]
  | @cons l rest ls hl _ ih =>
    rw [piecesFrom_spelling hl, pieces, List.splitOnP_cons_eq_if_modifyHead, ih]
    split
    · rfl
    · rw [prepend_eq_modifyHead (by simp [pieces])]
      simp only [pieces]
      cases ls.splitOnP isCut with
      | nil => rfl
      | cons piece pieces => simp [keptText]

/-- **The scanner implements the grammar of lexemes.**  Every text has exactly one sequence of
lexemes, and the statements of the script are the statements that they make. -/
theorem split_eq_statements (t : Text) :
    ∃ ls, (∀ ls', Lexes t ls' ↔ ls' = ls) ∧ split t = statements ls := by
  obtain ⟨ls, hls⟩ := exists_lexes t
  refine ⟨ls, fun ls' => ⟨fun h => h.unique hls, fun h => h ▸ hls⟩, ?_⟩
  rw [split, piecesFrom_eq_pieces hls, statements]

-- the opening marker does not close its comment, and a doubled quote does not end its literal
example : split "a/*/;*/b ---;'\nc; 'it''s;--'; /*".toList =
    ["a b  c".toList, "'it''s;--'".toList] := by
  decide

end SqlInterchange.Script
