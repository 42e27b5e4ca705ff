import SqlInterchange.Proofs.Script.Verbatim

/-! # Statements that survive a script

A statement is *whole* when nothing in it makes the scanner cut, drop or change a character, and
nothing of it is still open at its end: read alone, its lexemes are closed literals and characters
other than semicolons and line breaks.  A script of statements is split into just these if and only
if all of them are whole (`split_ofStatements_iff`).

One direction is the scanner's: it copies whole statements.  For the other one, whatever text is
split, its statements consist of such lexemes but for a literal that may be open at their end
(`clean_of_mem_split`); and a statement that ends in an open literal does not come back, because
the literal takes in the semicolon behind it.
-/
namespace SqlInterchange.Script

open Lexeme

namespace Lexeme

/-- Whether a lexeme is copied by the scanner. -/
def isClean : Lexeme → Bool
  | literal _ _ | openLiteral _ _ => true
  | char c => c != ';' && !Text.isLineBreak c
  | _ => false

/-- Whether a lexeme is open at the end of a text. -/
def isOpen : Lexeme → Bool
  | openLiteral _ _ | openComment _ => true
  | _ => false

/-- The lexemes of what a lexeme leaves in its statement. -/
def residue : Lexeme → List Lexeme
  | lineComment _ | openComment _ => []
  | blockComment _ => [char ' ']
  | char c => if Text.isLineBreak c then [char ' '] else [char c]
  | l => [l]

/-- What is left of a lexeme that does not end a statement is clean. -/
theorem isClean_of_mem_residue {l m : Lexeme} (hcut : l.isCut = false) (h : m ∈ l.residue) :
    m.isClean := by
  cases l with
  | literal quote body => exact List.mem_singleton.mp h ▸ rfl
  | openLiteral quote body => exact List.mem_singleton.mp h ▸ rfl
  | blockComment body => exact List.mem_singleton.mp h ▸ rfl
  | lineComment body => cases h
  | openComment body => cases h
  | char c =>
    rw [residue] at h
    split at h
    · exact List.mem_singleton.mp h ▸ rfl
    · next hbreak =>
      have hne : c ≠ ';' := by simpa [isCut] using hcut
      rw [List.mem_singleton.mp h]
      simp [isClean, hne, hbreak]

/-- A character that is no semicolon and ends no line is kept as it is. -/
theorem kept_of_isClean {l : Lexeme} (h : l.isClean) : l.kept = l.spelling ∧ l.isCut = false := by
  cases l with
  | literal quote body => exact ⟨rfl, rfl⟩
  | openLiteral quote body => exact ⟨rfl, rfl⟩
  | char c =>
    simp only [isClean, Bool.and_eq_true, bne_iff_ne, ne_eq, Bool.not_eq_true'] at h
    simp [kept, spelling, isCut, h]
  | lineComment body => cases h
  | blockComment body => cases h
  | openComment body => cases h

end Lexeme

/-- Whether a text consists of lexemes that the scanner copies. -/
def Clean (t : Text) : Prop := ∃ ls, Lexes t ls ∧ ∀ l ∈ ls, l.isClean

/-- Whether a statement survives a script. -/
structure Whole (s : Text) : Prop where
  ne_nil : s ≠ []
  trimmed : Text.trim s = s
  lexemes : ∃ ls, Lexes s ls ∧ ∀ l ∈ ls, l.isClean ∧ l.isOpen = false

/-! ## What is kept is clean -/

theorem Lexes.cons_inv {t : Text} {l : Lexeme} {ls : List Lexeme} (h : Lexes t (l :: ls)) :
    ∃ rest, t = l.spelling ++ rest ∧ l.Stands rest ∧ Lexes rest ls := by
  cases h with
  | cons hl hrest => exact ⟨_, rfl, hl, hrest⟩

theorem Lexes.eq_nil {ls : List Lexeme} (h : Lexes [] ls) : ls = [] := h.unique .nil

namespace Clean

theorem nil : Clean [] := ⟨[], .nil, fun _ h => absurd h List.not_mem_nil⟩

theorem cons {l : Lexeme} {rest : Text} (hl : l.Stands rest) (hclean : l.isClean)
    (h : Clean rest) : Clean (l.spelling ++ rest) := by
  obtain ⟨ls, hls, hall⟩ := h
  exact ⟨l :: ls, .cons hl hls, List.forall_mem_cons.mpr ⟨hclean, hall⟩⟩

end Clean

theorem isBlank_of_isQuote {q : Char} (h : isQuote q) : Text.isBlank q = false := by
  have hq : q = '\x27' ∨ q = '\x22' ∨ q = '\x60' := by
    simpa [isQuote, Identifier.backtick, or_assoc] using h
  rcases hq with rfl | rfl | rfl <;> rfl

/-- Two characters begin no text that goes on as `t` does, or with something else. -/
theorem not_prefix_of_head? {a b c : Char} {s t : Text} (h : ¬[a, b] <+: c :: t)
    (hs : ∀ d ∈ s.head?, d ∈ t.head? ∨ d ≠ b) : ¬[a, b] <+: c :: s := by
  rintro ⟨s', hs'⟩
  obtain ⟨rfl, rfl⟩ : a = c ∧ b :: s' = s := List.cons.inj hs'
  rcases hs b rfl with hb | hb
  · obtain ⟨t', rfl⟩ := List.head?_eq_some_iff.mp hb
    exact h ⟨t', rfl⟩
  · exact hb rfl

/-- A character that stands in front of `t` stands in front of what goes on as `t` does, or with
something that opens no comment. -/
theorem Lexeme.Stands.char_of_head? {c : Char} {s t : Text} (h : (char c).Stands t)
    (hs : ∀ d ∈ s.head?, d ∈ t.head? ∨ (d ≠ '-' ∧ d ≠ '*')) : (char c).Stands s := by
  obtain ⟨hquote, hline, hblock⟩ := h
  exact ⟨hquote, not_prefix_of_head? hline fun d hd => (hs d hd).imp_right And.left,
    not_prefix_of_head? hblock fun d hd => (hs d hd).imp_right And.right⟩

/-- A space is a lexeme of its own wherever it stands. -/
theorem Lexeme.stands_space (rest : Text) : (char ' ').Stands rest :=
  ⟨by decide, fun h => absurd (List.cons_prefix_cons.mp h).1 (by decide),
    fun h => absurd (List.cons_prefix_cons.mp h).1 (by decide)⟩

/-- A line break is a lexeme of its own. -/
theorem eq_char_of_lineBreak {l : Lexeme} {c : Char} {rest : Text} (hl : l.Stands rest)
    (hc : c ∈ (l.spelling ++ rest).head?) (hbreak : Text.isLineBreak c) : l = char c := by
  have hcases : c = '\n' ∨ c = '\r' := by simpa [Text.isLineBreak] using hbreak
  cases l with
  | char d => exact congrArg _ (Option.some.inj hc)
  | literal quote body =>
    obtain rfl : quote = c := Option.some.inj hc
    rcases hcases with rfl | rfl <;> cases hl.1
  | openLiteral quote body =>
    obtain rfl : quote = c := Option.some.inj hc
    rcases hcases with rfl | rfl <;> cases hl.1
  | lineComment body => rcases hcases with rfl | rfl <;> cases hc
  | blockComment body => rcases hcases with rfl | rfl <;> cases hc
  | openComment body => rcases hcases with rfl | rfl <;> cases hc

/-- What lexemes keep begins as they do, or with a space. -/
theorem head?_keptText {t : Text} {ls ms : List Lexeme} (h : Lexes t (ls ++ ms)) :
    ∀ d ∈ (keptText ls).head?, d ∈ t.head? ∨ d = ' ' := by
  intro d hd
  cases ls with
  | nil => cases hd
  | cons l ls =>
    obtain ⟨rest, rfl, hl, hrest⟩ := h.cons_inv
    cases l with
    | literal quote body => exact .inl hd
    | openLiteral quote body => exact .inl hd
    | blockComment body => exact .inr (Option.some.inj hd).symm
    | char c =>
      by_cases hbreak : Text.isLineBreak c
      · refine .inr (Option.some.inj (Eq.symm ?_))
        simpa [keptText, kept, hbreak] using hd
      · refine .inl ?_
        simpa [keptText, kept, spelling, hbreak] using hd
    | openComment body =>
      obtain ⟨-, rfl⟩ := hl
      obtain ⟨rfl, -⟩ := List.append_eq_nil_iff.mp hrest.eq_nil
      cases hd
    | lineComment body =>
      -- behind the comment there is a line break, which keeps a space, or nothing
      cases ls with
      | nil => cases hd
      | cons l ls =>
        obtain ⟨rest', rfl, hl', -⟩ := hrest.cons_inv
        obtain ⟨c, cs, hs⟩ := List.exists_cons_of_ne_nil l.spelling_ne_nil
        have hc : c ∈ (l.spelling ++ rest').head? := by simp [hs]
        have hbreak := hl.2 c hc
        obtain rfl := eq_char_of_lineBreak hl' hc hbreak
        refine .inr (Option.some.inj (Eq.symm ?_))
        simpa [keptText, kept, hbreak] using hd

/-- **What lexemes keep that do not end a statement has the lexemes that are left of them.** -/
theorem lexes_keptText {t : Text} {ls ms : List Lexeme} (h : Lexes t (ls ++ ms))
    (hcut : ∀ l ∈ ls, l.isCut = false) : Lexes (keptText ls) (ls.flatMap residue) := by
  induction ls generalizing t with
  | nil => exact .nil
  | cons l ls ih =>
    obtain ⟨rest, rfl, hl, hrest⟩ := h.cons_inv
    obtain ⟨hlcut, hcut⟩ := List.forall_mem_cons.mp hcut
    have hkept := ih hrest hcut
    -- a space is not part of any marker, so what stood in front of a lexeme stands in front of
    -- what is kept of it
    have hstands (c : Char) (hc : (char c).Stands rest) : (char c).Stands (keptText ls) :=
      hc.char_of_head? fun d hd => (head?_keptText hrest d hd).imp_right (by rintro rfl; decide)
    have hspace : Lexes (' ' :: keptText ls) (char ' ' :: ls.flatMap residue) :=
      .cons (l := char ' ') (stands_space _) hkept
    cases l with
    | literal quote body => exact .cons (l := literal quote body) hl hkept
    | openLiteral quote body =>
      obtain ⟨hquote, hbody, rfl⟩ := hl
      obtain ⟨rfl, -⟩ := List.append_eq_nil_iff.mp hrest.eq_nil
      exact .cons (l := openLiteral quote body) ⟨hquote, hbody, rfl⟩ hkept
    | lineComment body => exact hkept
    | blockComment body => exact hspace
    | openComment body => exact hkept
    | char c =>
      by_cases hbreak : Text.isLineBreak c
      · simpa [keptText, kept, residue, hbreak] using hspace
      · have hchar := Lexes.cons (hstands c hl) hkept
        simpa [keptText, kept, residue, spelling, hbreak] using hchar

/-! ## Parts of clean text are clean -/

/-- A lexeme that is copied stands in front of the beginning of what it stands in front of. -/
theorem Lexeme.Stands.of_append {l : Lexeme} {s t : Text} (h : l.Stands (s ++ t))
    (hclean : l.isClean) : l.Stands s := by
  cases l with
  | literal quote body => exact h
  | openLiteral quote body =>
    obtain ⟨hquote, hbody, hnil⟩ := h
    exact ⟨hquote, hbody, (List.append_eq_nil_iff.mp hnil).1⟩
  | char c =>
    refine h.char_of_head? fun d hd => .inl ?_
    rw [List.head?_append, Option.mem_def.mp hd]
    rfl
  | lineComment body => cases hclean
  | blockComment body => cases hclean
  | openComment body => cases hclean

/-- Whether a lexeme is a blank outside literals and comments. -/
def Lexeme.isSpace : Lexeme → Bool
  | char c => Text.isBlank c
  | _ => false

/-- Clean text is trimmed at its start by dropping the spaces there. -/
theorem Lexes.trimStart {t : Text} {ls : List Lexeme} (h : Lexes t ls)
    (hall : ∀ l ∈ ls, l.isClean) : Lexes (Text.trimStart t) (ls.dropWhile isSpace) := by
  induction h with
  | nil => exact .nil
  | @cons l rest ls hl hrest ih =>
    obtain ⟨hclean, hrestclean⟩ := List.forall_mem_cons.mp hall
    have hself := Lexes.cons hl hrest
    have hquoted {quote : Char} (hq : isQuote quote) (t : Text) :
        Text.trimStart (quote :: t) = quote :: t :=
      List.dropWhile_cons_of_neg (by simp [isBlank_of_isQuote hq])
    cases l with
    | literal quote body => exact (hquoted hl.1 _).symm ▸ hself
    | openLiteral quote body => exact (hquoted hl.1 _).symm ▸ hself
    | char c =>
      by_cases hblank : Text.isBlank c
      · have hdrop : Text.trimStart ((char c).spelling ++ rest) = Text.trimStart rest :=
          List.dropWhile_cons_of_pos hblank
        rw [hdrop, List.dropWhile_cons_of_pos (by exact hblank)]
        exact ih hrestclean
      · have hdrop : Text.trimStart ((char c).spelling ++ rest) = (char c).spelling ++ rest :=
          List.dropWhile_cons_of_neg (by simpa using hblank)
        rw [hdrop, List.dropWhile_cons_of_neg (by exact hblank)]
        exact hself
    | lineComment body => cases hclean
    | blockComment body => cases hclean
    | openComment body => cases hclean

namespace Clean

/-- The beginning of a lexeme that is copied. -/
theorem of_spelling {l : Lexeme} {rest s t : Text} (hl : l.Stands rest) (hclean : l.isClean)
    (h : l.spelling = s ++ t) : Clean s := by
  -- the whole lexeme is clean, and of a literal what comes before the closing quote is open
  cases s with
  | nil => exact nil
  | cons c s =>
    by_cases ht : t = []
    · have hwhole := Clean.cons (hl.of_append (s := []) hclean) hclean nil
      rwa [h, ht, List.append_nil, List.append_nil] at hwhole
    · have hopen {body : Text} (hquote : isQuote c) (hbody : c ∉ body)
          (hs : s <+: body) : Clean (c :: s) := by
        have hstands : (openLiteral c s).Stands [] :=
          ⟨hquote, fun hc => hbody (hs.subset hc), rfl⟩
        simpa [spelling] using Clean.cons hstands rfl nil
      cases l with
      | literal quote body =>
        obtain ⟨rfl, hs⟩ := List.cons.inj h
        rcases List.prefix_concat_iff.mp ⟨t, hs.symm⟩ with hs' | hs'
        · rw [hs'] at hs
          exact absurd (List.append_right_eq_self.mp hs.symm) ht
        · exact hopen hl.1 hl.2 hs'
      | openLiteral quote body =>
        obtain ⟨rfl, hs⟩ := List.cons.inj h
        exact hopen hl.1 hl.2.1 ⟨t, hs.symm⟩
      | char d =>
        obtain ⟨-, hnil⟩ := List.cons.inj h
        exact absurd (List.append_eq_nil_iff.mp hnil.symm).2 ht
      | lineComment body => cases hclean
      | blockComment body => cases hclean
      | openComment body => cases hclean

theorem of_append {s t : Text} (h : Clean (s ++ t)) : Clean s := by
  obtain ⟨ls, hls, hall⟩ := h
  induction ls generalizing s with
  | nil =>
    generalize hst : s ++ t = u at hls
    cases hls
    obtain ⟨rfl, -⟩ := List.append_eq_nil_iff.mp hst
    exact nil
  | cons l ls ih =>
    obtain ⟨hclean, hall⟩ := List.forall_mem_cons.mp hall
    obtain ⟨rest, e, hl, hrest⟩ := hls.cons_inv
    rcases List.append_eq_append_iff.mp e with ⟨a, ha, -⟩ | ⟨a, rfl, rfl⟩
    · exact of_spelling hl hclean ha
    · exact .cons (hl.of_append hclean) hclean (ih hrest hall)

theorem trimStart {t : Text} (h : Clean t) : Clean (Text.trimStart t) := by
  obtain ⟨ls, hls, hall⟩ := h
  exact ⟨_, hls.trimStart hall, fun l hl => hall l (List.dropWhile_subset _ hl)⟩

theorem trim {t : Text} (h : Clean t) : Clean (Text.trim t) := by
  obtain ⟨blanks, hblanks⟩ := Text.trimEnd_isPrefix (Text.trimStart t)
  exact of_append (hblanks ▸ h.trimStart)

end Clean

theorem Lexes.of_append {t : Text} {ls ms : List Lexeme} (h : Lexes t (ls ++ ms)) :
    ∃ u, Lexes u ms := by
  induction ls generalizing t with
  | nil => exact ⟨t, h⟩
  | cons l ls ih =>
    obtain ⟨rest, -, -, hrest⟩ := h.cons_inv
    exact ih hrest

/-- What the lexemes between two semicolons keep has the lexemes that are left of them. -/
theorem lexes_of_mem_splitOnP {t : Text} {ls ms : List Lexeme} (h : Lexes t (ls ++ ms))
    (hcut : ∀ l ∈ ls, l.isCut = false) :
    ∀ part ∈ (ls ++ ms).splitOnP isCut,
      Lexes (keptText part) (part.flatMap residue) ∧ ∀ l ∈ part, l.isCut = false := by
  -- the lexemes `ls` are the beginning of the first part
  induction ms generalizing t ls with
  | nil =>
    rw [List.append_nil, List.splitOnP_eq_singleton hcut]
    intro part hpart
    rw [List.mem_singleton.mp hpart]
    exact ⟨lexes_keptText h hcut, hcut⟩
  | cons l ms ih =>
    by_cases hl : l.isCut
    · rw [List.splitOnP_append_cons_of_forall_mem hcut l hl]
      refine List.forall_mem_cons.mpr ⟨⟨lexes_keptText h hcut, hcut⟩, ?_⟩
      obtain ⟨u, hu⟩ := h.of_append
      obtain ⟨rest, -, -, hrest⟩ := hu.cons_inv
      exact ih (show Lexes rest ([] ++ ms) from hrest) fun _ h => absurd h List.not_mem_nil
    · rw [List.append_cons]
      refine ih (List.append_cons ls l ms ▸ h) fun l' hl' => ?_
      rcases List.mem_append.mp hl' with hl' | hl'
      · exact hcut l' hl'
      · rw [List.mem_singleton.mp hl']
        simpa using hl

/-- What is left of the lexemes between two semicolons is clean. -/
theorem isClean_of_mem_flatMap_residue {part : List Lexeme} (hcut : ∀ l ∈ part, l.isCut = false) :
    ∀ m ∈ part.flatMap residue, m.isClean := by
  intro m hm
  obtain ⟨l, hl, hm⟩ := List.mem_flatMap.mp hm
  exact isClean_of_mem_residue (hcut l hl) hm

/-- **Whatever is split, its statements are clean.** -/
theorem clean_of_mem_split {s t : Text} (h : s ∈ split t) :
    Clean s ∧ s ≠ [] ∧ Text.trim s = s := by
  obtain ⟨ls, hls⟩ := exists_lexes t
  rw [split, piecesFrom_eq_pieces hls] at h
  obtain ⟨hmem, hne⟩ := List.mem_filter.mp h
  obtain ⟨piece, hpiece, rfl⟩ := List.mem_map.mp hmem
  obtain ⟨part, hpart, rfl⟩ := List.mem_map.mp hpiece
  obtain ⟨hlexes, hcut⟩ := lexes_of_mem_splitOnP (show Lexes t ([] ++ ls) from hls)
    (fun _ h => absurd h List.not_mem_nil) part hpart
  have hclean : Clean (keptText part) := ⟨_, hlexes, isClean_of_mem_flatMap_residue hcut⟩
  exact ⟨hclean.trim, by simpa using hne, Text.trim_trim _⟩

/-! ## Whole statements come back, and no others do -/

/-- A lexeme that is copied and closed stands in front of a semicolon. -/
theorem Lexeme.Stands.before_semicolon {l : Lexeme} {s : Text} (h : l.Stands s)
    (hclean : l.isClean) (hopen : l.isOpen = false) (rest : Text) :
    l.Stands (s ++ ';' :: rest) := by
  cases l with
  | literal quote body => exact h
  | char c =>
    refine h.char_of_head? fun d hd => ?_
    cases s with
    | nil =>
      obtain rfl : ';' = d := Option.some.inj hd
      exact .inr (by decide)
    | cons c s => exact .inl hd
  | openLiteral quote body => cases hopen
  | lineComment body => cases hclean
  | blockComment body => cases hclean
  | openComment body => cases hclean

/-- A lexeme that is copied and closed is copied in front of a semicolon too. -/
theorem piecesFrom_before_semicolon {l : Lexeme} {s : Text} (h : l.Stands s)
    (hclean : l.isClean) (hopen : l.isOpen = false) (rest : Text) :
    piecesFrom .plain (l.spelling ++ s ++ ';' :: rest) =
      prepend l.spelling (piecesFrom .plain (s ++ ';' :: rest)) := by
  obtain ⟨hkept, hcut⟩ := kept_of_isClean hclean
  rw [List.append_assoc, piecesFrom_spelling (h.before_semicolon hclean hopen rest), hcut, hkept]
  exact if_neg Bool.false_ne_true

/-- A whole text is a piece of its own. -/
theorem piecesFrom_whole {s : Text} {ls : List Lexeme} (h : Lexes s ls)
    (hall : ∀ l ∈ ls, l.isClean ∧ l.isOpen = false) (rest : Text) :
    piecesFrom .plain (s ++ ';' :: rest) = s :: piecesFrom .plain rest := by
  induction h with
  | nil => exact piecesFrom_cut rfl
  | @cons l s ls hl hrest ih =>
    obtain ⟨⟨hclean, hopen⟩, hall⟩ := List.forall_mem_cons.mp hall
    rw [piecesFrom_before_semicolon hl hclean hopen, ih hall]
    rfl

/-- A literal that is open at the end of a text takes in the semicolon behind it. -/
theorem piecesFrom_open {s : Text} {ls : List Lexeme} (h : Lexes s ls)
    (hall : ∀ l ∈ ls, l.isClean) (hopen : ∃ l ∈ ls, l.isOpen) (rest : Text) :
    ∃ piece pieces, piecesFrom .plain (s ++ ';' :: rest) = (s ++ ';' :: piece) :: pieces := by
  induction h with
  | nil =>
    obtain ⟨l, hl, -⟩ := hopen
    cases hl
  | @cons l s ls hl hrest ih =>
    obtain ⟨hclean, hall⟩ := List.forall_mem_cons.mp hall
    by_cases hopenl : l.isOpen
    · cases l with
      | openLiteral quote body =>
        obtain ⟨hquote, hbody, rfl⟩ := hl
        have hinside : quote ∉ body ++ [';'] := by
          intro hmem
          rcases List.mem_append.mp hmem with hmem | hmem
          · exact hbody hmem
          · rw [List.mem_singleton.mp hmem] at hquote
            cases hquote
        obtain ⟨piece, pieces, hbehind⟩ :=
          List.exists_cons_of_ne_nil (piecesFrom_ne_nil (.literal quote) rest)
        have hrun := (Takes.literal hinside rest).piecesFrom_eq
        simp only [hbehind, List.append_assoc, List.cons_append, List.nil_append] at hrun
        refine ⟨piece, pieces, ?_⟩
        simp only [spelling, List.append_nil, List.cons_append]
        rw [piecesFrom_keep .plain _ _ (plainStep_quote hquote _), hrun]
        simp
      | literal quote body => cases hopenl
      | char c => cases hopenl
      | lineComment body => cases hclean
      | blockComment body => cases hclean
      | openComment body => cases hclean
    · have hopen : ∃ l ∈ ls, l.isOpen := by
        obtain ⟨l', hl', hopen⟩ := hopen
        rcases List.mem_cons.mp hl' with rfl | hl'
        · exact absurd hopen hopenl
        · exact ⟨l', hl', hopen⟩
      obtain ⟨piece, pieces, hrun⟩ := ih hall hopen
      refine ⟨piece, pieces, ?_⟩
      rw [piecesFrom_before_semicolon hl hclean (by simpa using hopenl), hrun]
      simp

theorem Whole.split_append_separator {s : Text} (h : Whole s) (rest : Text) :
    split (s ++ separator ++ rest) = s :: split rest := by
  obtain ⟨ls, hls, hall⟩ := h.lexemes
  exact Script.split_append_separator h.ne_nil h.trimmed (piecesFrom_whole hls hall) rest

/-- A statement that comes back first is whole. -/
theorem Whole.of_split {s rest : Text} {ss : List Text}
    (h : split (s ++ separator ++ rest) = s :: ss) : Whole s := by
  obtain ⟨⟨ls, hls, hclean⟩, hne, htrim⟩ := clean_of_mem_split (h ▸ List.mem_cons_self ..)
  refine ⟨hne, htrim, ls, hls, fun l hl => ⟨hclean l hl, ?_⟩⟩
  by_contra hopen
  -- a literal is open at the end, so the first statement has the semicolon in it
  obtain ⟨piece, pieces, hrun⟩ :=
    piecesFrom_open hls hclean ⟨l, hl, by simpa using hopen⟩ ('\n' :: rest)
  have hfirst : Text.trim (s ++ ';' :: piece) = s ++ ';' :: Text.trimEnd piece := by
    obtain ⟨c, cs, rfl⟩ := List.exists_cons_of_ne_nil hne
    have hc : Text.isBlank c = false := Text.head?_trim (c :: cs) c (by rw [htrim]; rfl)
    have hstart : Text.trimStart (c :: cs ++ ';' :: piece) = c :: cs ++ ';' :: piece :=
      List.dropWhile_cons_of_neg (by simp [hc])
    rw [Text.trim, hstart, Text.trimEnd_append_cons _ _ rfl]
  have hsplit : split (s ++ separator ++ rest) =
      (s ++ ';' :: Text.trimEnd piece) :: fromPieces pieces := by
    rw [split_eq_fromPieces, List.append_assoc, separator]
    simp only [List.cons_append, List.nil_append]
    rw [hrun]
    simp [fromPieces, hfirst]
  have hs := (List.cons.inj (h.symm.trans hsplit)).1
  exact absurd (congrArg List.length hs) (by simp)

/-- **Main.** A script of statements is split into just these if and only if all are whole. -/
theorem split_ofStatements_iff {ss : List Text} :
    split (ofStatements ss) = ss ↔ ∀ s ∈ ss, Whole s := by
  induction ss with
  | nil => exact ⟨fun _ _ h => absurd h List.not_mem_nil, fun _ => rfl⟩
  | cons s ss ih =>
    rw [ofStatements, List.flatMap_cons, List.forall_mem_cons, ← ofStatements, ← ih]
    constructor
    · intro h
      have hs := Whole.of_split h
      rw [hs.split_append_separator] at h
      exact ⟨hs, (List.cons.inj h).2⟩
    · rintro ⟨hs, hss⟩
      rw [hs.split_append_separator, hss]

theorem whole_iff {s : Text} : Whole s ↔ split (ofStatements [s]) = [s] := by
  rw [split_ofStatements_iff, List.forall_mem_singleton]

instance (s : Text) : Decidable (Whole s) := decidable_of_iff _ whole_iff.symm

theorem Intact.whole {s : Text} (h : Intact s) : Whole s :=
  whole_iff.mpr (split_ofStatements fun _ ht => List.mem_singleton.mp ht ▸ h)

-- in a literal there is neither a comment nor an end
example : Whole "VALUES ('--;')".toList ∧ ¬Whole "VALUES (--;)".toList := by decide

end SqlInterchange.Script
