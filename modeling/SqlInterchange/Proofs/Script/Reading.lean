import SqlInterchange.Proofs.Script.Ending
import SqlInterchange.Proofs.Script.Whole

/-! # The lexemes of statements

The statements of a text are lexemes again: those of the text between two semicolons, each block
comment and line break become a space, the other comments gone, without the spaces at either end.
If no literal of the text is open, then its statements, read alone, have just these lexemes
(`split_eq_reading`).  The blanks around a text make no difference to its statements
(`split_trim`).
-/
namespace SqlInterchange

namespace Script

open Lexeme

/-! ## Trimmed texts are split alike -/

/-- A blank opens no lexeme. -/
theorem plainStep_blank {c : Char} (hc : Text.isBlank c) (next? : Option Char) :
    ∃ d, Text.isBlank d ∧ plainStep c next? = .keep [d] .plain := by
  have hquote : isQuote c = false := by
    by_contra h
    exact absurd hc (by simp [isBlank_of_isQuote (by simpa using h)])
  have hline : c ≠ '-' := by rintro rfl; cases hc
  have hblock : c ≠ '/' := by rintro rfl; cases hc
  have hcut : c ≠ ';' := by rintro rfl; cases hc
  by_cases hbreak : Text.isLineBreak c
  · exact ⟨' ', rfl, plainStep_lineBreak hbreak next?⟩
  · exact ⟨c, hc, by simp [plainStep, hline, hblock, hcut, hbreak, hquote]⟩

theorem split_cons_blank {c : Char} (hc : Text.isBlank c) (t : Text) :
    split (c :: t) = split t := by
  obtain ⟨d, hd, hstep⟩ := plainStep_blank hc t.head?
  rw [split_eq_fromPieces, piecesFrom_keep .plain [d] .plain hstep, fromPieces_prepend_blank hd]
  rfl

/-- What the scanner makes of a blank at the end is a blank, or nothing. -/
theorem step_blank (mode : Mode) {c : Char} (hc : Text.isBlank c) :
    ∃ kept mode', kept.all Text.isBlank ∧ step mode c none = .keep kept mode' := by
  cases mode with
  | plain =>
    obtain ⟨d, hd, hstep⟩ := plainStep_blank hc none
    exact ⟨[d], .plain, by simp [hd], hstep⟩
  | literal quote => exact ⟨[c], _, by simp [hc], rfl⟩
  | lineComment =>
    by_cases hbreak : Text.isLineBreak c
    · exact ⟨[' '], .plain, rfl, by simp [step, hbreak]⟩
    · exact ⟨[], .lineComment, rfl, by simp [step, hbreak]⟩
  | opening => exact ⟨[], .blockComment, rfl, rfl⟩
  | blockComment => exact ⟨[], .blockComment, rfl, by simp [step]⟩
  | closing => exact ⟨[], .plain, rfl, rfl⟩

/-- A blank completes no marker. -/
theorem not_mem_of_isBlank {c : Char} (hc : Text.isBlank c) : c ∉ ['-', '*', '/'] := by
  intro hmem
  simp only [List.mem_cons, List.not_mem_nil, or_false] at hmem
  rcases hmem with rfl | rfl | rfl <;> cases hc

/-- A blank at the end of a text goes to its last piece. -/
theorem split_append_blank (t : Text) {c : Char} (hc : Text.isBlank c) :
    split (t ++ [c]) = split t := by
  obtain ⟨pieces, last, ht, htc⟩ := piecesFrom_append .plain t (not_mem_of_isBlank hc) []
  obtain ⟨kept, mode', hkept, hstep⟩ := step_blank (modeAfter .plain t) hc
  have hblank : piecesFrom (modeAfter .plain t) [c] = [kept] :=
    (piecesFrom_keep _ kept mode' hstep).trans (by simp)
  rw [split_eq_fromPieces, split_eq_fromPieces, ht, htc, hblank]
  simp [fromPieces, Text.trim_append_blanks last hkept]

/-- **Blanks around a text make no difference to its statements.** -/
theorem split_trim (t : Text) : split (Text.trim t) = split t := by
  have hstart : split (Text.trimStart t) = split t := by
    induction t with
    | nil => rfl
    | cons c t ih =>
      by_cases hc : Text.isBlank c
      · rw [split_cons_blank hc, ← ih]
        exact congrArg split (List.dropWhile_cons_of_pos hc)
      · exact congrArg split (List.dropWhile_cons_of_neg hc)
  have hend (s : Text) : split (Text.trimEnd s) = split s := by
    induction s using List.reverseRecOn with
    | nil => rfl
    | append_singleton s c ih =>
      by_cases hc : Text.isBlank c
      · have hdrop : Text.trimEnd (s ++ [c]) = Text.trimEnd s := by
          simp [Text.trimEnd, Text.dropEndWhile, hc]
        rw [hdrop, ih, split_append_blank s hc]
      · have hkeep : Text.trimEnd (s ++ [c]) = s ++ [c] := by
          simp [Text.trimEnd, Text.dropEndWhile, hc]
        rw [hkeep]
  rw [Text.trim, hend, hstart]

/-! ## The lexemes of statements -/

/-- The text of lexemes is what they spell. -/
theorem Lexes.spelled {t : Text} {ls : List Lexeme} (h : Lexes t ls) : ls.flatMap spelling = t := by
  induction h with
  | nil => rfl
  | cons hl hrest ih => rw [List.flatMap_cons, ih]

/-- The beginning of lexemes that are copied. -/
theorem Lexes.left {t : Text} {ls ms : List Lexeme} (h : Lexes t (ls ++ ms))
    (hall : ∀ l ∈ ls, l.isClean) : ∃ rest, t = ls.flatMap spelling ++ rest ∧
      Lexes (ls.flatMap spelling) ls ∧ Lexes rest ms := by
  induction ls generalizing t with
  | nil => exact ⟨t, rfl, .nil, h⟩
  | cons l ls ih =>
    obtain ⟨hclean, hall⟩ := List.forall_mem_cons.mp hall
    obtain ⟨rest, rfl, hl, hrest⟩ := h.cons_inv
    obtain ⟨rest, rfl, hls, hms⟩ := ih hrest hall
    exact ⟨rest, by simp, .cons (hl.of_append hclean) hls, hms⟩

/-- The lexemes without the spaces at either end. -/
def trimmed (ls : List Lexeme) : List Lexeme := (ls.dropWhile isSpace).rdropWhile isSpace

/-- Whether a lexeme is a literal that is never closed. -/
def Lexeme.isOpenLiteral : Lexeme → Bool
  | openLiteral _ _ => true
  | _ => false

/-- Clean text whose literals are closed is trimmed by dropping the spaces at its ends. -/
theorem Lexes.trim {t : Text} {ls : List Lexeme} (h : Lexes t ls) (hall : ∀ l ∈ ls, l.isClean)
    (hclosed : ∀ l ∈ ls, l.isOpenLiteral = false) : Lexes (Text.trim t) (trimmed ls) := by
  have hend : ∀ (ls : List Lexeme) {t : Text}, Lexes t ls → (∀ l ∈ ls, l.isClean) →
      (∀ l ∈ ls, l.isOpenLiteral = false) → Lexes (Text.trimEnd t) (ls.rdropWhile isSpace) := by
    intro ls
    induction ls using List.reverseRecOn with
    | nil =>
      intro t h _ _
      cases h
      exact .nil
    | append_singleton ls l ih =>
      intro t h hall hclosed
      rw [List.forall_mem_append, List.forall_mem_singleton] at hall hclosed
      obtain ⟨rest, ht, hls, hlast⟩ := h.left hall.1
      obtain rfl : l.spelling = rest := by simpa using hlast.spelled
      have hink (s : Text) {c : Char} (hc : Text.isBlank c = false) :
          Text.trimEnd (s ++ [c]) = s ++ [c] := by
        simp [Text.trimEnd, Text.dropEndWhile, hc]
      obtain ⟨_, -, hstands, -⟩ := hlast.cons_inv
      cases l with
      | literal quote body =>
        -- the closing quote is no blank
        rw [List.rdropWhile_concat_neg _ _ _ (by simp [isSpace])]
        have hquote := hink (ls.flatMap spelling ++ quote :: body) (isBlank_of_isQuote hstands.1)
        simp only [List.append_assoc, List.cons_append] at hquote
        rw [ht, spelling, List.cons_append, hquote, ← List.cons_append, ← spelling, ← ht]
        exact h
      | char c =>
        by_cases hc : Text.isBlank c
        · rw [List.rdropWhile_concat_pos _ _ _ (by exact hc)]
          have hdrop : Text.trimEnd t = Text.trimEnd (ls.flatMap spelling) := by
            simp [ht, spelling, Text.trimEnd, Text.dropEndWhile, hc]
          rw [hdrop]
          exact ih hls hall.1 hclosed.1
        · rw [List.rdropWhile_concat_neg _ _ _ (by exact hc), ht, spelling,
            hink _ (by simpa using hc)]
          rw [spelling] at ht
          exact ht ▸ h
      | openLiteral quote body => cases hclosed.2
      | lineComment body => cases hall.2
      | blockComment body => cases hall.2
      | openComment body => cases hall.2
  exact hend _ (h.trimStart hall) (fun l hl => hall l (List.dropWhile_subset _ hl))
    fun l hl => hclosed l (List.dropWhile_subset _ hl)

/-- The lexemes left between the semicolons. -/
def parts (ls : List Lexeme) : List (List Lexeme) := (ls.splitOnP isCut).map (·.flatMap residue)

theorem parts_ne_nil (ls : List Lexeme) : parts ls ≠ [] := by simp [parts]

theorem parts_cut {l : Lexeme} (h : l.isCut) (ls : List Lexeme) :
    parts (l :: ls) = [] :: parts ls := by
  simp [parts, List.splitOnP_cons_eq_if_modifyHead, h]

theorem parts_keep {l : Lexeme} (h : l.isCut = false) {ls part : List Lexeme}
    {rest : List (List Lexeme)} (hrest : parts ls = part :: rest) :
    parts (l :: ls) = (l.residue ++ part) :: rest := by
  obtain ⟨first, others, hsplit⟩ := List.exists_cons_of_ne_nil (List.splitOnP_ne_nil isCut ls)
  rw [parts, hsplit] at hrest
  obtain ⟨rfl, rfl⟩ := List.cons.inj hrest
  simp [parts, List.splitOnP_cons_eq_if_modifyHead, h, hsplit]

/-- What holds of all that is left of lexemes holds of their parts. -/
theorem forall_mem_parts {p : Lexeme → Prop} {ls : List Lexeme}
    (h : ∀ l ∈ ls, l.isCut = false → ∀ m ∈ l.residue, p m) :
    ∀ part ∈ parts ls, ∀ m ∈ part, p m := by
  induction ls with
  | nil =>
    intro part hpart m hm
    rw [List.mem_singleton.mp hpart] at hm
    cases hm
  | cons l ls ih =>
    obtain ⟨hl, hrest⟩ := List.forall_mem_cons.mp h
    have hparts := ih hrest
    by_cases hcut : l.isCut
    · rw [parts_cut hcut]
      exact List.forall_mem_cons.mpr ⟨fun m hm => absurd hm List.not_mem_nil, hparts⟩
    · obtain ⟨part, rest, hpart⟩ := List.exists_cons_of_ne_nil (parts_ne_nil ls)
      rw [hpart] at hparts
      obtain ⟨hfirst, hothers⟩ := List.forall_mem_cons.mp hparts
      rw [parts_keep (by simpa using hcut) hpart]
      refine List.forall_mem_cons.mpr ⟨fun m hm => ?_, hothers⟩
      rcases List.mem_append.mp hm with hm | hm
      · exact hl (by simpa using hcut) m hm
      · exact hfirst m hm

/-- A literal that is open between semicolons is open in the text. -/
theorem isOpenLiteral_of_mem_parts {ls : List Lexeme} (h : ∀ l ∈ ls, l.isOpenLiteral = false) :
    ∀ part ∈ parts ls, ∀ m ∈ part, m.isOpenLiteral = false := by
  refine forall_mem_parts fun l hl _ m hm => ?_
  have hopen := h l hl
  cases l with
  | char c =>
    rw [residue] at hm
    split at hm <;> rw [List.mem_singleton.mp hm] <;> rfl
  | lineComment body => cases hm
  | openComment body => cases hm
  | literal quote body => rw [List.mem_singleton.mp hm]; rfl
  | blockComment body => rw [List.mem_singleton.mp hm]; rfl
  | openLiteral quote body => cases hopen

/-- The lexemes of the statements that lexemes make. -/
def reading (ls : List Lexeme) : List (List Lexeme) :=
  ((parts ls).map trimmed).filter (!·.isEmpty)

/-- **The statements of a text and their lexemes.** -/
theorem split_eq_reading {t : Text} {ls : List Lexeme} (h : Lexes t ls)
    (hclosed : ∀ l ∈ ls, l.isOpenLiteral = false) :
    split t = (reading ls).map (·.flatMap spelling) ∧
      ∀ ms ∈ reading ls, Lexes (ms.flatMap spelling) ms := by
  have hclean : ∀ part ∈ parts ls, ∀ m ∈ part, m.isClean :=
    forall_mem_parts fun l _ hcut m hm => isClean_of_mem_residue hcut hm
  have hshut := isOpenLiteral_of_mem_parts hclosed
  have hpart : ∀ part ∈ ls.splitOnP isCut,
      Lexes (Text.trim (keptText part)) (trimmed (part.flatMap residue)) := by
    intro part hpart
    have hmem := List.mem_map_of_mem (f := (·.flatMap residue)) hpart
    have hlexes := (lexes_of_mem_splitOnP (show Lexes t ([] ++ ls) from h)
      (fun _ h => absurd h List.not_mem_nil) part hpart).1
    exact hlexes.trim (hclean _ hmem) (hshut _ hmem)
  have hspelled : ((ls.splitOnP isCut).map keptText).map Text.trim =
      ((parts ls).map trimmed).map (·.flatMap spelling) := by
    rw [parts, List.map_map, List.map_map, List.map_map]
    exact List.map_congr_left fun part hmem => (hpart part hmem).spelled.symm
  have hempty (ms : List Lexeme) : (ms.flatMap spelling).isEmpty = ms.isEmpty := by
    cases ms with
    | nil => rfl
    | cons l ms => simp [spelling_ne_nil]
  constructor
  · rw [split, piecesFrom_eq_pieces h, pieces, hspelled, List.filter_map, reading]
    exact congrArg _ (List.filter_congr fun ms _ => congrArg _ (hempty ms))
  · intro ms hms
    obtain ⟨left, hleft, rfl⟩ := List.mem_map.mp (List.mem_filter.mp hms).1
    obtain ⟨part, hmem, rfl⟩ := List.mem_map.mp hleft
    have hlexes := hpart part hmem
    exact hlexes.spelled.symm ▸ hlexes

end Script
end SqlInterchange
