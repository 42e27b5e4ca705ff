import SqlInterchange.Proofs.Script.Scanner

/-! # Where a scan ends

After a text the scanner is in some mode: outside literals and comments, or in one that the text
leaves open.  It is the mode that the last lexeme of the text leaves the scanner in
(`modeAfter_eq_leaves`).

The scanner does not look back.  So what it makes of a text followed by another one is what it
makes of the first, and then what it makes of the second from where the first has left it
(`piecesFrom_append`), unless the second completes a marker that the first has begun.
-/
namespace SqlInterchange.Script

open Lexeme

/-- The mode that the scanner is in after a text. -/
def modeAfter (mode : Mode) : Text → Mode
  | [] => mode
  | c :: cs =>
    match step mode c cs.head? with
    | .cut => modeAfter .plain cs
    | .keep _ mode => modeAfter mode cs

@[simp] theorem modeAfter_nil (mode : Mode) : modeAfter mode [] = mode := rfl

theorem modeAfter_cut {mode : Mode} {c : Char} {cs : Text} (h : step mode c cs.head? = .cut) :
    modeAfter mode (c :: cs) = modeAfter .plain cs := by
  rw [modeAfter, h]

theorem modeAfter_keep (mode : Mode) (kept : Text) (mode' : Mode) {c : Char} {cs : Text}
    (h : step mode c cs.head? = .keep kept mode') :
    modeAfter mode (c :: cs) = modeAfter mode' cs := by
  rw [modeAfter, h]

theorem Takes.modeAfter_eq {rest t kept : Text} {mode mode' : Mode}
    (h : Takes rest mode t kept mode') : modeAfter mode (t ++ rest) = modeAfter mode' rest := by
  induction h with
  | nil mode => rfl
  | cons kept mode' h _ ih => rw [List.cons_append, modeAfter_keep _ _ _ h, ih]

/-! ## The last lexeme -/

theorem modeAfter_last {l : Lexeme} (h : l.Stands []) : modeAfter .plain l.spelling = l.leaves := by
  by_cases hcut : l.isCut
  · rw [eq_of_beq hcut]
    rfl
  · simpa using (takes_spelling h (by simpa using hcut)).modeAfter_eq

theorem modeAfter_spelling {l : Lexeme} {rest : Text} (h : l.Stands rest) (hrest : rest ≠ []) :
    modeAfter .plain (l.spelling ++ rest) = modeAfter .plain rest := by
  by_cases hcut : l.isCut
  · rw [eq_of_beq hcut]
    exact modeAfter_cut rfl
  rw [(takes_spelling h (by simpa using hcut)).modeAfter_eq]
  cases l with
  | lineComment body =>
    -- the line break behind the comment ends it
    obtain ⟨c, cs, rfl⟩ := List.exists_cons_of_ne_nil hrest
    have hc : Text.isLineBreak c = true := h.2 c rfl
    rw [modeAfter_keep .plain _ _ (plainStep_lineBreak hc _)]
    exact modeAfter_keep .lineComment [' '] .plain (by simp [step, hc])
  | openLiteral q body => exact absurd h.2.2 hrest
  | openComment body => exact absurd h.2 hrest
  | literal q body => rfl
  | blockComment body => rfl
  | char c => rfl

/-- **A scan ends in the mode that the last lexeme leaves it in.** -/
theorem modeAfter_eq_leaves {t : Text} {ls : List Lexeme} (h : Lexes t ls) :
    modeAfter .plain t = (ls.getLast?.map leaves).getD .plain := by
  induction h with
  | nil => rfl
  | @cons l rest ls hl hrest ih =>
    by_cases hnil : rest = []
    · subst hnil
      obtain rfl : ls = [] := hrest.unique .nil
      rw [List.append_nil, modeAfter_last hl]
      rfl
    · have hls : ls ≠ [] := by
        rintro rfl
        cases hrest
        exact hnil rfl
      rw [modeAfter_spelling hl hnil, ih, List.getLast?_cons_of_ne_nil hls]

/-! ## One text behind another -/

theorem step_head_append (mode : Mode) (d : Char) (t : Text) {c : Char} (hc : c ∉ ['-', '*', '/'])
    (rest : Text) : step mode d (t ++ c :: rest).head? = step mode d t.head? := by
  cases t with
  | nil => exact step_before mode d hc
  | cons e t => rfl

theorem modeAfter_append (mode : Mode) (t : Text) {c : Char} (hc : c ∉ ['-', '*', '/'])
    (rest : Text) : modeAfter mode (t ++ c :: rest) = modeAfter (modeAfter mode t) (c :: rest) := by
  induction t generalizing mode with
  | nil => rfl
  | cons d t ih =>
    have hstep := step_head_append mode d t hc rest
    cases hmove : step mode d t.head? with
    | cut => rw [List.cons_append, modeAfter_cut (hstep.trans hmove), modeAfter_cut hmove, ih]
    | keep kept mode' =>
      rw [List.cons_append, modeAfter_keep _ _ _ (hstep.trans hmove), modeAfter_keep _ _ _ hmove,
        ih]

/-- **The scanner goes on from where a text has left it.**  The last piece of the text is the
beginning of the first piece of what follows. -/
theorem piecesFrom_append (mode : Mode) (t : Text) {c : Char} (hc : c ∉ ['-', '*', '/'])
    (rest : Text) : ∃ pieces last, piecesFrom mode t = pieces ++ [last] ∧
      piecesFrom mode (t ++ c :: rest) =
        pieces ++ prepend last (piecesFrom (modeAfter mode t) (c :: rest)) := by
  induction t generalizing mode with
  | nil => exact ⟨[], [], rfl, (prepend_nil (piecesFrom_ne_nil _ _)).symm⟩
  | cons d t ih =>
    have hstep := step_head_append mode d t hc rest
    cases hmove : step mode d t.head? with
    | cut =>
      obtain ⟨pieces, last, ht, hall⟩ := ih .plain
      refine ⟨[] :: pieces, last, ?_, ?_⟩
      · rw [piecesFrom_cut hmove, ht]
        rfl
      · rw [List.cons_append, piecesFrom_cut (hstep.trans hmove), hall, modeAfter_cut hmove]
        rfl
    | keep kept mode' =>
      obtain ⟨pieces, last, ht, hall⟩ := ih mode'
      rw [List.cons_append, piecesFrom_keep _ _ _ (hstep.trans hmove), hall,
        piecesFrom_keep _ _ _ hmove, ht, modeAfter_keep _ _ _ hmove]
      cases pieces with
      | nil => exact ⟨[], kept ++ last, rfl, prepend_prepend ..⟩
      | cons piece pieces => exact ⟨(kept ++ piece) :: pieces, last, rfl, rfl⟩

end SqlInterchange.Script
