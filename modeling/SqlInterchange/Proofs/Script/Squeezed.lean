import SqlInterchange.Proofs.Script.Reading

/-! # Statements on one line

Definitions from a catalog are squeezed: every run of blanks becomes one space, wherever it stands.
The scanner does not take all blanks alike.  Outside literals they separate, so one is as good as
many; in a literal they are content; and behind a line comment a line break ends the comment, so
that without it the comment takes in the rest of the text.

A squeezed text has the lexemes of the text up to its first line comment, their bodies squeezed,
and then at most that comment (`exists_lexes_collapseBlanks`).  Therefore a text that is read as
one statement is read as the same statement on one line, blanks outside literals aside, if and only
if squeezing leaves its literals as they are and nothing that counts stands behind a line comment
(`split_squeeze_iff`).
-/
namespace SqlInterchange

/-! ## Collapsed blanks -/

namespace Text

theorem isBlank_of_isLineBreak {c : Char} (h : isLineBreak c) : isBlank c := by
  have hc : c = '\n' ∨ c = '\r' := by simpa [isLineBreak] using h
  rcases hc with rfl | rfl <;> rfl

/-- A character that is no blank ends a run of blanks. -/
theorem collapseBlanks_append_cons (afterBlank : Bool) (s : Text) {c : Char}
    (hc : isBlank c = false) (t : Text) : collapseBlanks afterBlank (s ++ c :: t) =
      collapseBlanks afterBlank s ++ c :: collapseBlanks false t := by
  induction s generalizing afterBlank with
  | nil => simp [collapseBlanks, hc]
  | cons d s ih =>
    by_cases hd : isBlank d
    · cases afterBlank <;> simp [collapseBlanks, hd, ih]
    · simp [collapseBlanks, hd, ih]

theorem collapseBlanks_cons (afterBlank : Bool) {c : Char} (hc : isBlank c = false) (t : Text) :
    collapseBlanks afterBlank (c :: t) = c :: collapseBlanks false t :=
  collapseBlanks_append_cons afterBlank [] hc t

/-- What is left of the blanks are spaces. -/
theorem mem_collapseBlanks {afterBlank : Bool} {t : Text} {c : Char}
    (h : c ∈ collapseBlanks afterBlank t) : c = ' ' ∨ (c ∈ t ∧ isBlank c = false) := by
  induction t generalizing afterBlank with
  | nil => cases h
  | cons d t ih =>
    have hrest {b : Bool} (h : c ∈ collapseBlanks b t) :
        c = ' ' ∨ (c ∈ d :: t ∧ isBlank c = false) :=
      (ih h).imp_right fun h => ⟨List.mem_cons_of_mem _ h.1, h.2⟩
    rw [collapseBlanks] at h
    split at h
    · split at h
      · exact hrest h
      · rcases List.mem_cons.mp h with rfl | h
        · exact .inl rfl
        · exact hrest h
    · next hd =>
      rcases List.mem_cons.mp h with rfl | h
      · exact .inr ⟨List.mem_cons_self .., by simpa using hd⟩
      · exact hrest h

theorem head?_collapseBlanks (t : Text) :
    ∀ d ∈ (collapseBlanks false t).head?, d ∈ t.head? ∨ d = ' ' := by
  intro d hd
  cases t with
  | nil => cases hd
  | cons c t =>
    by_cases hc : isBlank c
    · refine .inr ?_
      simpa [collapseBlanks, hc, eq_comm] using hd
    · refine .inl ?_
      simpa [collapseBlanks, hc] using hd

/-- Collapsing blanks makes no marker that closes a block comment. -/
theorem closing_of_collapseBlanks {afterBlank : Bool} {t : Text}
    (h : ['*', '/'] <:+: collapseBlanks afterBlank t) : ['*', '/'] <:+: t := by
  induction t generalizing afterBlank with
  | nil => exact h
  | cons c t ih =>
    have hrest {b : Bool} (h : ['*', '/'] <:+: collapseBlanks b t) : ['*', '/'] <:+: c :: t :=
      (ih h).trans (List.suffix_cons c t).isInfix
    rw [collapseBlanks] at h
    split at h
    · split at h
      · exact hrest h
      · rcases List.infix_cons_iff.mp h with hprefix | h
        · exact absurd (List.cons_prefix_cons.mp hprefix).1 (by decide)
        · exact hrest h
    · rcases List.infix_cons_iff.mp h with hprefix | h
      · -- the marker stands at the front, so it stands there before too
        obtain ⟨rfl, u, hu⟩ := List.cons_prefix_cons.mp hprefix
        have hslash : '/' ∈ (collapseBlanks false t).head? := by simp [← hu]
        have hhead := (head?_collapseBlanks t '/' hslash).resolve_right (by decide)
        obtain ⟨v, rfl⟩ := List.head?_eq_some_iff.mp hhead
        exact ⟨[], v, rfl⟩
      · exact hrest h

end Text

namespace Script

open Lexeme

namespace Lexeme

/-- A lexeme with its body on one line. -/
def level : Lexeme → Lexeme
  | literal quote body => literal quote (Text.collapseBlanks false body)
  | openLiteral quote body => openLiteral quote (Text.collapseBlanks false body)
  | lineComment body => lineComment (Text.collapseBlanks false body)
  | blockComment body => blockComment (Text.collapseBlanks false body)
  | openComment body => openComment (Text.collapseBlanks false body)
  | char c => char c

/-- Whether a lexeme is a closed literal. -/
def isLiteral : Lexeme → Bool
  | literal _ _ => true
  | _ => false

/-- Whether a lexeme is a comment that ends with the line. -/
def isLineComment : Lexeme → Bool
  | lineComment _ => true
  | _ => false

/-- Whether a lexeme is more in a statement than a blank: no comment, no blank and no semicolon. -/
def isSubstantial : Lexeme → Bool
  | literal _ _ | openLiteral _ _ => true
  | char c => c != ';' && !Text.isBlank c
  | _ => false

end Lexeme

/-! ## Blanks aside -/

/-- Lexemes other than spaces, each with whether a space stands before it; the flag says that one
stands before the first. -/
def spaced (afterBlank : Bool) : List Lexeme → List (Bool × Lexeme)
  | [] => []
  | l :: ls => if l.isSpace then spaced true ls else (afterBlank, l) :: spaced false ls

/-- Whether two statements are the same but for the number and the kind of the blanks between
their lexemes: the same literals, character for character, and outside of them the same text. -/
def SameButBlanks (s s' : Text) : Prop :=
  ∃ ms ms', Lexes s ms ∧ Lexes s' ms' ∧ spaced true ms = spaced true ms'

/-- The parts of lexemes, blanks aside; the flag is for the first part. -/
def spacedParts (afterBlank : Bool) (ls : List Lexeme) : List (List (Bool × Lexeme)) :=
  match parts ls with
  | [] => []
  | part :: rest => spaced afterBlank part :: rest.map (spaced true)

theorem spacedParts_true (ls : List Lexeme) :
    spacedParts true ls = (parts ls).map (spaced true) := by
  rw [spacedParts]
  cases parts ls <;> rfl

theorem spacedParts_nil (afterBlank : Bool) : spacedParts afterBlank [] = [[]] := rfl

/-- What is left of a lexeme: itself, if it is substantial; otherwise a space or nothing. -/
theorem residue_of_isSubstantial {l : Lexeme} (h : l.isSubstantial) :
    l.residue = [l] ∧ l.isSpace = false ∧ l.isCut = false := by
  cases l with
  | char c =>
    obtain ⟨hcut, hblank⟩ : c ≠ ';' ∧ Text.isBlank c = false := by simpa [isSubstantial] using h
    have hbreak : Text.isLineBreak c = false := by
      by_contra hbreak
      simp [Text.isBlank_of_isLineBreak (by simpa using hbreak)] at hblank
    simp [residue, isSpace, isCut, hbreak, hblank, hcut]
  | literal quote body => exact ⟨rfl, rfl, rfl⟩
  | openLiteral quote body => exact ⟨rfl, rfl, rfl⟩
  | lineComment body => cases h
  | blockComment body => cases h
  | openComment body => cases h

theorem isSpace_of_mem_residue {l : Lexeme} (h : l.isSubstantial = false) (hcut : l.isCut = false) :
    ∀ m ∈ l.residue, m.isSpace := by
  intro m hm
  cases l with
  | char c =>
    have hne : c ≠ ';' := by simpa [isCut] using hcut
    have hblank : Text.isBlank c := by simpa [isSubstantial, hne] using h
    rw [residue] at hm
    split at hm <;> rw [List.mem_singleton.mp hm]
    · rfl
    · exact hblank
  | blockComment body => rw [List.mem_singleton.mp hm]; rfl
  | lineComment body => cases hm
  | openComment body => cases hm
  | literal quote body => cases h
  | openLiteral quote body => cases h

theorem spaced_append_spaces (afterBlank : Bool) {ms : List Lexeme} (h : ∀ m ∈ ms, m.isSpace)
    (ls : List Lexeme) : spaced afterBlank (ms ++ ls) = spaced (afterBlank || !ms.isEmpty) ls := by
  induction ms generalizing afterBlank with
  | nil => simp
  | cons m ms ih =>
    obtain ⟨hm, hms⟩ := List.forall_mem_cons.mp h
    rw [List.cons_append, spaced, if_pos hm, ih true hms]
    simp

/-- What a lexeme does to the parts: a semicolon begins a new one, a substantial lexeme comes to
the first one, and the others leave a space or nothing. -/
theorem spacedParts_cons (afterBlank : Bool) (l : Lexeme) (ls : List Lexeme) :
    spacedParts afterBlank (l :: ls) =
      if l.isCut then [] :: spacedParts true ls
      else if l.isSubstantial then (spacedParts false ls).modifyHead ((afterBlank, l) :: ·)
      else spacedParts (afterBlank || !l.residue.isEmpty) ls := by
  by_cases hcut : l.isCut
  · rw [if_pos hcut, spacedParts, parts_cut hcut, spacedParts_true]
    rfl
  · obtain ⟨part, rest, hparts⟩ := List.exists_cons_of_ne_nil (parts_ne_nil ls)
    rw [if_neg hcut, spacedParts, parts_keep (by simpa using hcut) hparts]
    by_cases hsub : l.isSubstantial
    · obtain ⟨hself, hspace, -⟩ := residue_of_isSubstantial hsub
      rw [if_pos hsub, hself, spacedParts, hparts]
      simp [spaced, hspace]
    · have hspaces := isSpace_of_mem_residue (by simpa using hsub) (by simpa using hcut)
      rw [if_neg hsub, spacedParts, hparts]
      simp only [spaced_append_spaces afterBlank hspaces]

theorem spacedParts_space (afterBlank : Bool) {l : Lexeme} (h : l.isSpace) (ls : List Lexeme) :
    spacedParts afterBlank (l :: ls) = spacedParts true ls := by
  cases l with
  | char c =>
    have hblank : Text.isBlank c := h
    have hcut : c ≠ ';' := by rintro rfl; cases h
    have hleft : (char c).residue.isEmpty = false := by
      rw [residue]
      split <;> rfl
    rw [spacedParts_cons, if_neg (by simpa [isCut] using hcut),
      if_neg (by simp [isSubstantial, hblank]), hleft]
    simp
  | _ => cases h

/-! ## A squeezed text -/

/-- The lexemes up to the first line comment. -/
def heard (ls : List Lexeme) : List Lexeme := ls.takeWhile (!·.isLineComment)

/-- The lexemes from the first line comment on. -/
def unheard (ls : List Lexeme) : List Lexeme := ls.dropWhile (!·.isLineComment)

/-- Parts with their literals on one line. -/
def levelParts (ps : List (List (Bool × Lexeme))) : List (List (Bool × Lexeme)) :=
  ps.map (·.map fun m => (m.1, m.2.level))

/-- A lexeme on one line stands where the lexeme stood; of a line comment this is not so. -/
theorem Lexeme.Stands.level {l : Lexeme} {rest : Text} (h : l.Stands rest)
    (hline : l.isLineComment = false) : l.level.Stands (Text.collapseBlanks false rest) := by
  have hquote {q : Char} {body : Text} (hq : isQuote q) (hbody : q ∉ body) :
      q ∉ Text.collapseBlanks false body := by
    intro hmem
    rcases Text.mem_collapseBlanks hmem with rfl | ⟨hmem, -⟩
    · cases hq
    · exact hbody hmem
  cases l with
  | literal quote body => exact ⟨h.1, hquote h.1 h.2⟩
  | openLiteral quote body =>
    obtain ⟨hq, hbody, rfl⟩ := h
    exact ⟨hq, hquote hq hbody, rfl⟩
  | lineComment body => cases hline
  | blockComment body => exact fun hclosing => h (Text.closing_of_collapseBlanks hclosing)
  | openComment body =>
    obtain ⟨hbody, rfl⟩ := h
    exact ⟨fun hclosing => hbody (Text.closing_of_collapseBlanks hclosing), rfl⟩
  | char c =>
    exact h.char_of_head? fun d hd =>
      (Text.head?_collapseBlanks rest d hd).imp_right (by rintro rfl; decide)

/-- Collapsing blanks goes through a lexeme that is no blank and no line comment. -/
theorem collapseBlanks_spelling (afterBlank : Bool) {l : Lexeme} {rest : Text} (h : l.Stands rest)
    (hline : l.isLineComment = false) (hspace : l.isSpace = false) :
    Text.collapseBlanks afterBlank (l.spelling ++ rest) =
      l.level.spelling ++ Text.collapseBlanks false rest := by
  cases l with
  | literal quote body =>
    have hquote := isBlank_of_isQuote h.1
    simp [spelling, level, Text.collapseBlanks_cons, Text.collapseBlanks_append_cons, hquote]
  | openLiteral quote body =>
    obtain ⟨hq, -, rfl⟩ := h
    simp [spelling, level, Text.collapseBlanks_cons, isBlank_of_isQuote hq, Text.collapseBlanks]
  | lineComment body => cases hline
  | blockComment body =>
    have hstar : Text.isBlank '*' = false := rfl
    have hslash : Text.isBlank '/' = false := rfl
    simp [spelling, level, Text.collapseBlanks_cons, Text.collapseBlanks_append_cons, hstar,
      hslash]
  | openComment body =>
    obtain ⟨-, rfl⟩ := h
    have hstar : Text.isBlank '*' = false := rfl
    have hslash : Text.isBlank '/' = false := rfl
    simp [spelling, level, Text.collapseBlanks_cons, hstar, hslash, Text.collapseBlanks]
  | char c => exact Text.collapseBlanks_cons afterBlank hspace rest

/-- On one line a lexeme does to the parts what it did before. -/
theorem spacedParts_level {l : Lexeme} {ls ms : List Lexeme}
    (h : ∀ flag : Bool, spacedParts flag ms = levelParts (spacedParts flag ls)) (flag : Bool) :
    spacedParts flag (l.level :: ms) = levelParts (spacedParts flag (l :: ls)) := by
  have hcut : l.level.isCut = l.isCut := by cases l <;> rfl
  have hsub : l.level.isSubstantial = l.isSubstantial := by cases l <;> rfl
  have hleft : l.level.residue.isEmpty = l.residue.isEmpty := by cases l <;> rfl
  rw [spacedParts_cons, spacedParts_cons, hcut, hsub, hleft]
  split
  · rw [h]
    rfl
  · split
    · rw [h]
      cases spacedParts false ls <;> rfl
    · exact h _

/-- **The lexemes of a text with its blanks collapsed**: those up to the first line comment,
literals on one line, and then at most that comment. -/
theorem exists_lexes_collapseBlanks {t : Text} {ls : List Lexeme} (h : Lexes t ls)
    (hclosed : ∀ l ∈ ls, l.isOpenLiteral = false) (afterBlank : Bool) :
    ∃ ms, Lexes (Text.collapseBlanks afterBlank t) ms ∧ (∀ m ∈ ms, m.isOpenLiteral = false) ∧
      ∀ flag : Bool, (afterBlank → flag) →
        spacedParts flag ms = levelParts (spacedParts flag (heard ls)) := by
  induction h generalizing afterBlank with
  | nil => exact ⟨[], .nil, hclosed, fun flag _ => rfl⟩
  | @cons l rest ls hl hrest ih =>
    obtain ⟨hlclosed, hclosed⟩ := List.forall_mem_cons.mp hclosed
    by_cases hline : l.isLineComment
    · cases l with
      | lineComment body =>
        -- without its line break the comment takes in the rest of the text
        have hstands : (lineComment (Text.collapseBlanks false (body ++ rest))).Stands [] := by
          refine ⟨fun c hc => ?_, fun c hc => absurd hc (by simp)⟩
          rcases Text.mem_collapseBlanks hc with rfl | ⟨-, hblank⟩
          · rfl
          · by_contra hbreak
            simp [Text.isBlank_of_isLineBreak (by simpa using hbreak)] at hblank
        refine ⟨[lineComment (Text.collapseBlanks false (body ++ rest))], ?_, ?_,
          fun flag _ => rfl⟩
        · have hdash : Text.isBlank '-' = false := rfl
          simpa [spelling, Text.collapseBlanks_cons, hdash] using Lexes.cons hstands .nil
        · exact List.forall_mem_singleton.mpr rfl
      | _ => cases hline
    have hline : l.isLineComment = false := by simpa using hline
    have hheard : heard (l :: ls) = l :: heard ls := by simp [heard, hline]
    by_cases hspace : l.isSpace
    · obtain ⟨ms, hms, hopen, hparts⟩ := ih hclosed true
      have hflag (flag : Bool) : spacedParts true ms =
          levelParts (spacedParts flag (heard (l :: ls))) := by
        rw [hheard, spacedParts_space flag hspace]
        exact hparts true fun _ => rfl
      cases l with
      | char c =>
        have hblank : Text.isBlank c := hspace
        cases afterBlank with
        | true =>
          -- the space for this blank is already written
          refine ⟨ms, by simpa [spelling, Text.collapseBlanks, hblank] using hms, hopen, ?_⟩
          intro flag hflagged
          obtain rfl : flag = true := hflagged rfl
          exact hflag true
        | false =>
          refine ⟨char ' ' :: ms, ?_, List.forall_mem_cons.mpr ⟨rfl, hopen⟩, fun flag _ => ?_⟩
          · simpa [spelling, Text.collapseBlanks, hblank] using
              Lexes.cons (l := char ' ') (stands_space _) hms
          · rw [spacedParts_space flag (by rfl)]
            exact hflag flag
      | _ => cases hspace
    · have hspace : l.isSpace = false := by simpa using hspace
      obtain ⟨ms, hms, hopen, hparts⟩ := ih hclosed false
      refine ⟨l.level :: ms, ?_, ?_, fun flag _ => ?_⟩
      · rw [collapseBlanks_spelling afterBlank hl hline hspace]
        exact .cons (hl.level hline) hms
      · refine List.forall_mem_cons.mpr ⟨?_, hopen⟩
        cases l <;> first | rfl | exact hlclosed
      · rw [hheard]
        exact spacedParts_level (fun flag => hparts flag (by simp)) flag

/-! ## The statement of a squeezed text -/

theorem spaced_eq_nil_iff (afterBlank : Bool) {ls : List Lexeme} :
    spaced afterBlank ls = [] ↔ ∀ l ∈ ls, l.isSpace := by
  induction ls generalizing afterBlank with
  | nil => simp [spaced]
  | cons l ls ih =>
    rw [spaced, List.forall_mem_cons]
    by_cases hl : l.isSpace <;> simp [hl, ih]

theorem spaced_append_space (afterBlank : Bool) (ls : List Lexeme) {l : Lexeme}
    (hl : l.isSpace) : spaced afterBlank (ls ++ [l]) = spaced afterBlank ls := by
  induction ls generalizing afterBlank with
  | nil => simp [spaced, hl]
  | cons m ls ih => rw [List.cons_append, spaced, spaced, ih, ih]

/-- Trimming takes away nothing but blanks. -/
theorem spaced_trimmed (ls : List Lexeme) : spaced true (trimmed ls) = spaced true ls := by
  have hstart : spaced true (ls.dropWhile isSpace) = spaced true ls := by
    induction ls with
    | nil => rfl
    | cons l ls ih =>
      by_cases hl : l.isSpace
      · rw [List.dropWhile_cons_of_pos hl, ih, spaced, if_pos hl]
      · rw [List.dropWhile_cons_of_neg hl]
  have hend (ls : List Lexeme) : spaced true (ls.rdropWhile isSpace) = spaced true ls := by
    induction ls using List.reverseRecOn with
    | nil => rfl
    | append_singleton ls l ih =>
      by_cases hl : l.isSpace
      · rw [List.rdropWhile_concat_pos _ _ _ hl, ih, spaced_append_space true ls hl]
      · rw [List.rdropWhile_concat_neg _ _ _ hl]
  rw [trimmed, hend, hstart]

theorem trimmed_eq_nil_iff {ls : List Lexeme} : trimmed ls = [] ↔ ∀ l ∈ ls, l.isSpace := by
  rw [← spaced_eq_nil_iff true]
  constructor
  · intro h
    rw [← spaced_trimmed, h]
    rfl
  · intro h
    rw [trimmed, List.dropWhile_eq_nil_iff.mpr ((spaced_eq_nil_iff true).mp h)]
    rfl

/-- The statements that lexemes make, blanks aside. -/
theorem map_spaced_reading (ls : List Lexeme) :
    (reading ls).map (spaced true) = (spacedParts true ls).filter (!·.isEmpty) := by
  have hempty (part : List Lexeme) : (trimmed part).isEmpty = (spaced true part).isEmpty := by
    rw [Bool.eq_iff_iff, List.isEmpty_iff, List.isEmpty_iff, trimmed_eq_nil_iff,
      spaced_eq_nil_iff]
  rw [reading, spacedParts_true, List.filter_map, List.filter_map, List.map_map]
  have hfilter : (parts ls).filter ((!·.isEmpty) ∘ trimmed) =
      (parts ls).filter ((!·.isEmpty) ∘ spaced true) :=
    List.filter_congr fun part _ => congrArg _ (hempty part)
  rw [hfilter]
  exact List.map_congr_left fun part _ => spaced_trimmed part

theorem spacedParts_ne_nil (afterBlank : Bool) (ls : List Lexeme) :
    spacedParts afterBlank ls ≠ [] := by
  obtain ⟨part, rest, hparts⟩ := List.exists_cons_of_ne_nil (parts_ne_nil ls)
  simp [spacedParts, hparts]

/-- The parts have all that is substantial. -/
theorem substance_spacedParts (afterBlank : Bool) (ls : List Lexeme) :
    (spacedParts afterBlank ls).flatten.map Prod.snd = ls.filter isSubstantial := by
  induction ls generalizing afterBlank with
  | nil => rfl
  | cons l ls ih =>
    rw [spacedParts_cons, List.filter_cons]
    by_cases hcut : l.isCut
    · have hsub : l.isSubstantial = false := by
        by_contra h
        simp [(residue_of_isSubstantial (by simpa using h)).2.2] at hcut
      simp [hcut, hsub, ih]
    · by_cases hsub : l.isSubstantial
      · obtain ⟨part, rest, hparts⟩ :=
          List.exists_cons_of_ne_nil (spacedParts_ne_nil false ls)
        have hrest := ih false
        rw [hparts] at hrest
        simpa [hcut, hsub, hparts] using hrest
      · simp [hcut, hsub, ih]

/-- Lexemes that are not substantial add no more than empty parts. -/
theorem spacedParts_append_idle (afterBlank : Bool) (ls : List Lexeme) {idle : List Lexeme}
    (h : ∀ l ∈ idle, l.isSubstantial = false) :
    ∃ n, spacedParts afterBlank (ls ++ idle) =
      spacedParts afterBlank ls ++ List.replicate n [] := by
  induction ls generalizing afterBlank with
  | nil =>
    induction idle generalizing afterBlank with
    | nil => exact ⟨0, by simp⟩
    | cons l idle ih =>
      obtain ⟨hl, hidle⟩ := List.forall_mem_cons.mp h
      obtain ⟨n, hn⟩ := ih hidle (afterBlank || !l.residue.isEmpty)
      obtain ⟨k, hk⟩ := ih hidle true
      rw [List.nil_append] at hn hk ⊢
      rw [spacedParts_cons, hl, hn, hk]
      by_cases hcut : l.isCut
      · exact ⟨k + 1, by simp [hcut, spacedParts_nil, List.replicate_succ]⟩
      · exact ⟨n, by simp [hcut, spacedParts_nil]⟩
  | cons l ls ih =>
    rw [List.cons_append, spacedParts_cons, spacedParts_cons]
    split
    · obtain ⟨n, hn⟩ := ih true
      exact ⟨n, by rw [hn]; rfl⟩
    · split
      · obtain ⟨n, hn⟩ := ih false
        obtain ⟨part, rest, hparts⟩ :=
          List.exists_cons_of_ne_nil (spacedParts_ne_nil false ls)
        exact ⟨n, by rw [hn, hparts]; rfl⟩
      · exact ih _

/-- Two texts that are read as one statement each are the same statement, blanks aside. -/
theorem sameButBlanks_iff {s s' : Text} {ms ms' : List Lexeme} (h : Lexes s ms)
    (h' : Lexes s' ms') : SameButBlanks s s' ↔ spaced true ms = spaced true ms' := by
  constructor
  · rintro ⟨ns, ns', hns, hns', he⟩
    rwa [h.unique hns, h'.unique hns']
  · intro he
    exact ⟨ms, ms', h, h', he⟩

/-- What is one of the statements, blanks aside. -/
theorem split_singleton_iff {t : Text} {ls : List Lexeme} (h : Lexes t ls)
    (hclosed : ∀ l ∈ ls, l.isOpenLiteral = false) (said : List (Bool × Lexeme)) :
    (∃ s ms, split t = [s] ∧ Lexes s ms ∧ spaced true ms = said) ↔
      (spacedParts true ls).filter (!·.isEmpty) = [said] := by
  obtain ⟨hsplit, hlexes⟩ := split_eq_reading h hclosed
  rw [← map_spaced_reading, hsplit]
  constructor
  · rintro ⟨s, ms, hs, hms, rfl⟩
    obtain ⟨ns, hns, rfl⟩ := List.map_eq_singleton_iff.mp hs
    have hself := hlexes ns (hns ▸ List.mem_singleton_self ns)
    rw [hns, hms.unique hself]
    rfl
  · intro he
    obtain ⟨ns, hns, rfl⟩ := List.map_eq_singleton_iff.mp he
    have hself := hlexes ns (hns ▸ List.mem_singleton_self ns)
    exact ⟨ns.flatMap spelling, ns, by rw [hns]; rfl, hself, rfl⟩

/-- Whether squeezing neither changes nor hides what lexemes say: the literals are on one line,
and behind a line comment there is nothing but blanks, comments and semicolons. -/
def Unharmed (ls : List Lexeme) : Prop :=
  (∀ l ∈ ls, l.isLiteral → l.level = l) ∧ ∀ l ∈ unheard ls, l.isSubstantial = false

instance (ls : List Lexeme) : Decidable (Unharmed ls) := inferInstanceAs (Decidable (_ ∧ _))

theorem heard_append_unheard (ls : List Lexeme) : heard ls ++ unheard ls = ls :=
  List.takeWhile_append_dropWhile

theorem flatten_filter_isEmpty {α : Type} (parts : List (List α)) :
    (parts.filter (!·.isEmpty)).flatten = parts.flatten := by
  induction parts with
  | nil => rfl
  | cons part parts ih => cases part <;> simp [ih]

/-- What is substantial on one line. -/
theorem substance_levelParts (flag : Bool) (ls : List Lexeme) :
    (levelParts (spacedParts flag ls)).flatten.map Prod.snd =
      (ls.filter isSubstantial).map level := by
  rw [← substance_spacedParts flag ls, levelParts, ← List.map_flatten, List.map_map, List.map_map]
  rfl

/-- Of what is substantial, only literals change on one line. -/
theorem level_eq_self_iff {ls : List Lexeme} (hclosed : ∀ l ∈ ls, l.isOpenLiteral = false) :
    (∀ l ∈ ls.filter isSubstantial, l.level = l) ↔ ∀ l ∈ ls, l.isLiteral → l.level = l := by
  constructor
  · intro h l hmem hliteral
    cases l with
    | literal quote body => exact h _ (List.mem_filter.mpr ⟨hmem, rfl⟩)
    | _ => cases hliteral
  · intro h l hl
    obtain ⟨hmem, hsub⟩ := List.mem_filter.mp hl
    cases l with
    | literal quote body => exact h _ hmem rfl
    | openLiteral quote body => cases hclosed _ hmem
    | char c => rfl
    | lineComment body => cases hsub
    | blockComment body => cases hsub
    | openComment body => cases hsub

/-- Squeezing leaves the statements as they are, blanks aside, if and only if it does no harm. -/
theorem levelParts_eq_iff {ls : List Lexeme} (hclosed : ∀ l ∈ ls, l.isOpenLiteral = false) :
    (levelParts (spacedParts true (heard ls))).filter (!·.isEmpty) =
      (spacedParts true ls).filter (!·.isEmpty) ↔ Unharmed ls := by
  have hsplit : ls.filter isSubstantial =
      (heard ls).filter isSubstantial ++ (unheard ls).filter isSubstantial := by
    rw [← List.filter_append, heard_append_unheard]
  constructor
  · intro he
    have hsub : ((heard ls).filter isSubstantial).map level = ls.filter isSubstantial := by
      rw [← substance_levelParts true, ← substance_spacedParts true, ← flatten_filter_isEmpty, he,
        flatten_filter_isEmpty]
    -- nothing is lost, so nothing is behind a line comment
    have hnone : (unheard ls).filter isSubstantial = [] := by
      have hlength := congrArg List.length hsub
      rw [hsplit, List.length_map, List.length_append] at hlength
      exact List.eq_nil_of_length_eq_zero (by omega)
    rw [hnone, List.append_nil] at hsplit
    refine ⟨(level_eq_self_iff hclosed).mp fun l hl => ?_, fun l hl => ?_⟩
    · rw [hsplit] at hsub hl
      have hid : ((heard ls).filter isSubstantial).map level =
          ((heard ls).filter isSubstantial).map id := by rw [hsub, List.map_id]
      exact List.map_inj_left.mp hid l hl
    · simpa using List.filter_eq_nil_iff.mp hnone l hl
  · rintro ⟨hliterals, hidle⟩
    have hlevel := (level_eq_self_iff hclosed).mpr hliterals
    obtain ⟨n, hn⟩ := spacedParts_append_idle true (heard ls) hidle
    rw [heard_append_unheard] at hn
    have hself : levelParts (spacedParts true (heard ls)) = spacedParts true (heard ls) := by
      refine (List.map_congr_left fun part hpart => ?_).trans (List.map_id _)
      refine (List.map_congr_left fun m hm => ?_).trans (List.map_id _)
      have hmem : m.2 ∈ (heard ls).filter isSubstantial := by
        rw [← substance_spacedParts true]
        exact List.mem_map_of_mem (List.mem_flatten_of_mem hpart hm)
      rw [hlevel m.2 (hsplit ▸ List.mem_append_left _ hmem)]
      rfl
    rw [hself, hn, List.filter_append]
    simp

/-- **Main.** A text whose literals are closed, and that is read as one statement, is read on one
line as the same statement, blanks outside literals aside, if and only if squeezing leaves the
literals as they are and behind a line comment there is nothing but blanks, comments and
semicolons. -/
theorem split_squeeze_iff {t s : Text} {ls : List Lexeme} (h : Lexes t ls)
    (hclosed : ∀ l ∈ ls, l.isOpenLiteral = false) (hs : split t = [s]) :
    (∃ s', split (Text.squeeze t) = [s'] ∧ SameButBlanks s s') ↔ Unharmed ls := by
  obtain ⟨ms, hms⟩ := exists_lexes s
  have hsaid := (split_singleton_iff h hclosed (spaced true ms)).mp ⟨s, ms, hs, hms, rfl⟩
  obtain ⟨ns, hns, hnsclosed, hparts⟩ := exists_lexes_collapseBlanks h hclosed false
  rw [← levelParts_eq_iff hclosed, ← hparts true (by simp), hsaid,
    ← split_singleton_iff hns hnsclosed, Text.squeeze, split_trim]
  constructor
  · rintro ⟨s', hs', hsame⟩
    obtain ⟨ms', hms'⟩ := exists_lexes s'
    exact ⟨s', ms', hs', hms', ((sameButBlanks_iff hms hms').mp hsame).symm⟩
  · rintro ⟨s', ms', hs', hms', he⟩
    exact ⟨s', hs', ms, ms', hms, hms', he.symm⟩

/-- A definition on two lines, with a comment behind which nothing counts. -/
def spaciousView : Text := "CREATE VIEW v AS\n  SELECT /* two */ 'x y' -- end".toList

/-- The lexemes of that definition. -/
def spaciousViewLexemes : List Lexeme :=
  "CREATE VIEW v AS\n  SELECT ".toList.map char ++ [blockComment " two ".toList, char ' ',
    literal '\x27' "x y".toList, char ' ', lineComment " end".toList]

/-- That definition is the same statement on one line. -/
theorem spaciousView_comes_back :
    (Lexes spaciousView spaciousViewLexemes ∧
      (∀ l ∈ spaciousViewLexemes, l.isOpenLiteral = false) ∧
      split spaciousView = ["CREATE VIEW v AS   SELECT   'x y'".toList]) ∧
    ∃ s', split (Text.squeeze spaciousView) = [s'] ∧
      SameButBlanks "CREATE VIEW v AS   SELECT   'x y'".toList s' := by
  have hlexes : Lexes spaciousView spaciousViewLexemes := by decide
  have hclosed : ∀ l ∈ spaciousViewLexemes, l.isOpenLiteral = false := by decide
  have hsplit : split spaciousView = ["CREATE VIEW v AS   SELECT   'x y'".toList] := by
    decide
  have hunharmed : Unharmed spaciousViewLexemes := by decide
  exact ⟨⟨hlexes, hclosed, hsplit⟩, (split_squeeze_iff hlexes hclosed hsplit).mpr hunharmed⟩

/-- A definition with two blanks side by side in a literal. -/
def roomyDefault : Text := "CREATE TABLE t (a DEFAULT 'x  y')".toList

/-- The lexemes of that definition. -/
def roomyDefaultLexemes : List Lexeme :=
  "CREATE TABLE t (a DEFAULT ".toList.map char ++ [literal '\x27' "x  y".toList, char ')']

/-- The literal of that definition is another one on one line. -/
theorem roomyDefault_does_not_come_back :
    Lexes roomyDefault roomyDefaultLexemes ∧
      (∀ l ∈ roomyDefaultLexemes, l.isOpenLiteral = false) ∧
      split roomyDefault = [roomyDefault] ∧
      ¬∃ s', split (Text.squeeze roomyDefault) = [s'] ∧ SameButBlanks roomyDefault s' := by
  have hlexes : Lexes roomyDefault roomyDefaultLexemes := by decide
  refine ⟨hlexes, by decide, by decide, ?_⟩
  rintro ⟨s', hs', hsame⟩
  have hsqueezed : split (Text.squeeze roomyDefault) =
      ["CREATE TABLE t (a DEFAULT 'x y')".toList] := by decide
  obtain rfl : "CREATE TABLE t (a DEFAULT 'x y')".toList = s' :=
    List.singleton_inj.mp (hsqueezed.symm.trans hs')
  have hlexes' : Lexes "CREATE TABLE t (a DEFAULT 'x y')".toList
      ("CREATE TABLE t (a DEFAULT ".toList.map char ++
        [literal '\x27' "x y".toList, char ')']) := by decide
  exact absurd ((sameButBlanks_iff hlexes hlexes').mp hsame) (by decide)

end Script
end SqlInterchange
