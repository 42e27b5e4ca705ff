import SqlInterchange.Proofs.Script.Reading

/-! # Statements are split again as they are

What a script is split into consists of lexemes that the scanner copies, whatever was between them
in the script: a comment that is taken out leaves a space, or a line break that is one, or nothing
at the end, so no two characters come together that make a marker.  Therefore each statement alone
is a script of just that statement.

The statements written one after the other, with their separators, are read as the same statements
too, unless a literal is open where the script ends.  It is then open where the last statement
ends, and there it takes in the separator (`split_is_stable`).
-/
namespace SqlInterchange

namespace Script

open Lexeme

/-! ## Statements alone -/

/-- Text that consists of copied lexemes is one piece. -/
theorem Clean.piecesFrom_eq {s : Text} (h : Clean s) : piecesFrom .plain s = [s] := by
  obtain ⟨ls, hls, hall⟩ := h
  have hcut : ∀ l ∈ ls, l.isCut = false := fun l hl => (kept_of_isClean (hall l hl)).2
  have hkept : keptText ls = s := by
    rw [← hls.spelled, keptText, List.flatMap_def, List.flatMap_def]
    exact congrArg _ (List.map_congr_left fun l hl => (kept_of_isClean (hall l hl)).1)
  rw [piecesFrom_eq_pieces hls, pieces, List.splitOnP_eq_singleton hcut, List.map_singleton, hkept]

theorem split_of_mem_split {s t : Text} (h : s ∈ split t) : split s = [s] := by
  obtain ⟨hclean, hne, htrim⟩ := clean_of_mem_split h
  rw [split_eq_fromPieces, hclean.piecesFrom_eq]
  simp [fromPieces, htrim, hne]

/-! ## Open literals -/

theorem Lexeme.exists_of_isOpenLiteral {l : Lexeme} (h : l.isOpenLiteral) :
    ∃ q body, l = openLiteral q body := by
  cases l with
  | openLiteral q body => exact ⟨q, body, rfl⟩
  | literal q body => cases h
  | lineComment body => cases h
  | blockComment body => cases h
  | openComment body => cases h
  | char c => cases h

theorem Lexeme.exists_of_leaves {l : Lexeme} {q : Char} (h : l.leaves = .literal q) :
    ∃ body, l = openLiteral q body := by
  cases l with
  | openLiteral quote body =>
    obtain rfl : quote = q := Mode.literal.inj h
    exact ⟨body, rfl⟩
  | literal quote body => cases h
  | lineComment body => cases h
  | blockComment body => cases h
  | openComment body => cases h
  | char c => cases h

/-- A scan ends in a literal if and only if a literal is open. -/
theorem modeAfter_eq_literal_iff {t : Text} {ls : List Lexeme} (h : Lexes t ls) :
    (∃ q, modeAfter .plain t = .literal q) ↔ ∃ l ∈ ls, l.isOpenLiteral := by
  rw [modeAfter_eq_leaves h]
  constructor
  · rintro ⟨q, hq⟩
    cases hlast : ls.getLast? with
    | none =>
      rw [hlast] at hq
      cases hq
    | some l =>
      rw [hlast] at hq
      obtain ⟨body, rfl⟩ := exists_of_leaves hq
      exact ⟨_, List.mem_of_getLast? hlast, rfl⟩
  · rintro ⟨l, hl, hopen⟩
    obtain ⟨before, behind, rfl⟩ := List.append_of_mem hl
    obtain ⟨u, hu⟩ := h.of_append
    obtain ⟨q, body, rfl⟩ := exists_of_isOpenLiteral hopen
    -- nothing is behind it
    obtain ⟨_, -, ⟨-, -, rfl⟩, hrest⟩ := hu.cons_inv
    obtain rfl := hrest.eq_nil
    exact ⟨q, by simp [leaves]⟩

theorem modeAfter_cons_blank {c : Char} (hc : Text.isBlank c) (t : Text) :
    modeAfter .plain (c :: t) = modeAfter .plain t := by
  obtain ⟨d, -, hstep⟩ := plainStep_blank hc t.head?
  exact modeAfter_keep .plain [d] .plain hstep

theorem modeAfter_trimStart (t : Text) :
    modeAfter .plain (Text.trimStart t) = modeAfter .plain t := by
  induction t with
  | nil => rfl
  | cons c t ih =>
    by_cases hc : Text.isBlank c
    · rw [modeAfter_cons_blank hc, ← ih]
      exact congrArg _ (List.dropWhile_cons_of_pos hc)
    · exact congrArg _ (List.dropWhile_cons_of_neg hc)

/-- A blank opens no literal. -/
theorem eq_literal_of_step_blank {mode : Mode} {c : Char} (hc : Text.isBlank c)
    {next? : Option Char} {kept : Text} {q : Char} (h : step mode c next? = .keep kept (.literal q)) :
    mode = .literal q := by
  cases mode with
  | plain =>
    obtain ⟨d, -, hstep⟩ := plainStep_blank hc next?
    cases hstep.symm.trans h
  | literal quote =>
    rw [step] at h
    split at h
    · cases h
    · cases h
      rfl
  | lineComment =>
    rw [step] at h
    split at h <;> cases h
  | opening => cases h
  | blockComment =>
    rw [step] at h
    split at h <;> cases h
  | closing => cases h

theorem eq_literal_of_blanks {mode : Mode} {q : Char} {blanks : Text}
    (h : ∀ c ∈ blanks, Text.isBlank c) (hmode : modeAfter mode blanks = .literal q) :
    mode = .literal q := by
  induction blanks generalizing mode with
  | nil => exact hmode
  | cons c cs ih =>
    obtain ⟨hc, hcs⟩ := List.forall_mem_cons.mp h
    cases hmove : step mode c cs.head? with
    | cut =>
      rw [modeAfter_cut hmove] at hmode
      cases ih hcs hmode
    | keep kept mode' =>
      rw [modeAfter_keep _ _ _ hmove] at hmode
      obtain rfl := ih hcs hmode
      exact eq_literal_of_step_blank hc hmove

/-- A literal that is open where a text ends is open where the trimmed text ends. -/
theorem modeAfter_trim {q : Char} {t : Text} (h : modeAfter .plain t = .literal q) :
    modeAfter .plain (Text.trim t) = .literal q := by
  rw [← modeAfter_trimStart] at h
  obtain ⟨blanks, hdropped, hblanks⟩ := Text.exists_dropped Text.isBlank (Text.trimStart t)
  cases blanks with
  | nil =>
    rw [List.append_nil] at hdropped
    exact (congrArg _ hdropped.symm).trans h
  | cons c cs =>
    have hc := not_mem_of_isBlank (hblanks c (List.mem_cons_self ..))
    rw [hdropped, modeAfter_append _ _ hc] at h
    exact eq_literal_of_blanks hblanks h

/-! ## Statements together -/

/-- Of the lexemes that are copied only literals can be open. -/
theorem Lexeme.isOpen_of_isClean {l : Lexeme} (h : l.isClean) : l.isOpen = l.isOpenLiteral := by
  cases l with
  | openComment body => cases h
  | literal q body => rfl
  | openLiteral q body => rfl
  | lineComment body => rfl
  | blockComment body => rfl
  | char c => rfl

/-- The statements of a text without open literals are whole. -/
theorem whole_of_mem_split {t : Text} {ls : List Lexeme} (h : Lexes t ls)
    (hclosed : ∀ l ∈ ls, l.isOpenLiteral = false) : ∀ s ∈ split t, Whole s := by
  intro s hs
  obtain ⟨⟨ms, hms, hclean⟩, hne, htrim⟩ := clean_of_mem_split hs
  obtain ⟨hsplit, hreading⟩ := split_eq_reading h hclosed
  rw [hsplit] at hs
  obtain ⟨ms', hms', rfl⟩ := List.mem_map.mp hs
  obtain rfl : ms = ms' := hms.unique (hreading ms' hms')
  obtain ⟨part, hpart, rfl⟩ := List.mem_map.mp (List.mem_filter.mp hms').1
  refine ⟨hne, htrim, trimmed part, hms, fun l hl => ⟨hclean l hl, ?_⟩⟩
  have hmem : l ∈ part :=
    List.dropWhile_subset _ ((List.rdropWhile_prefix _ _).subset hl)
  rw [isOpen_of_isClean (hclean l hl)]
  exact isOpenLiteral_of_mem_parts hclosed part hpart l hmem

/-- What is left of a lexeme between semicolons is in one of the parts. -/
theorem exists_mem_parts {ls : List Lexeme} {l m : Lexeme} (hl : l ∈ ls) (hcut : l.isCut = false)
    (hm : m ∈ l.residue) : ∃ part ∈ parts ls, m ∈ part := by
  induction ls with
  | nil => cases hl
  | cons l' ls ih =>
    by_cases hcut' : l'.isCut
    · have hne : l ≠ l' := by
        rintro rfl
        exact Bool.false_ne_true (hcut.symm.trans hcut')
      obtain ⟨part, hpart, hmem⟩ := ih ((List.mem_cons.mp hl).resolve_left hne)
      rw [parts_cut hcut']
      exact ⟨part, List.mem_cons_of_mem _ hpart, hmem⟩
    · obtain ⟨first, rest, hfirst⟩ := List.exists_cons_of_ne_nil (parts_ne_nil ls)
      rw [parts_keep (by simpa using hcut') hfirst]
      rcases List.mem_cons.mp hl with rfl | hl
      · exact ⟨_, List.mem_cons_self .., List.mem_append_left _ hm⟩
      · obtain ⟨part, hpart, hmem⟩ := ih hl
        rw [hfirst] at hpart
        rcases List.mem_cons.mp hpart with rfl | hpart
        · exact ⟨_, List.mem_cons_self .., List.mem_append_right _ hmem⟩
        · exact ⟨part, List.mem_cons_of_mem _ hpart, hmem⟩

/-- A literal that is open where a text ends is open where one of its statements ends. -/
theorem exists_mem_split_of_literal {t : Text} {q : Char} (h : modeAfter .plain t = .literal q) :
    ∃ s ∈ split t, ∃ q, modeAfter .plain s = .literal q := by
  obtain ⟨ls, hls⟩ := exists_lexes t
  obtain ⟨l, hl, hopen⟩ := (modeAfter_eq_literal_iff hls).mp ⟨q, h⟩
  obtain ⟨quote, body, rfl⟩ := exists_of_isOpenLiteral hopen
  obtain ⟨left, hleft, hmem⟩ := exists_mem_parts hl rfl (List.mem_singleton_self _)
  obtain ⟨part, hpart, rfl⟩ := List.mem_map.mp hleft
  have hlexes := (lexes_of_mem_splitOnP (show Lexes t ([] ++ ls) from hls)
    (fun _ h => absurd h List.not_mem_nil) part hpart).1
  obtain ⟨q', hq'⟩ := (modeAfter_eq_literal_iff hlexes).mpr ⟨_, hmem, hopen⟩
  have hend := modeAfter_trim hq'
  refine ⟨Text.trim (keptText part), ?_, q', hend⟩
  have hpiece : keptText part ∈ pieces ls := List.mem_map_of_mem hpart
  rw [split, piecesFrom_eq_pieces hls]
  refine List.mem_filter.mpr ⟨List.mem_map_of_mem hpiece, ?_⟩
  cases hempty : Text.trim (keptText part) with
  | nil =>
    rw [hempty] at hend
    cases hend
  | cons c cs => rfl

/-- **Main.** Each statement that a text is split into has something in it, no blanks around it, and
is alone split into itself.  The statements written with their separators are split into the same
ones if and only if the scan of the text does not end in a literal. -/
theorem split_is_stable (t : Text) :
    (∀ s ∈ split t, s ≠ [] ∧ (∀ c ∈ s.head?, Text.isBlank c = false) ∧
      (∀ c ∈ s.getLast?, Text.isBlank c = false) ∧ split s = [s]) ∧
    (split (ofStatements (split t)) = split t ↔ ∀ q, modeAfter .plain t ≠ .literal q) := by
  constructor
  · intro s hs
    obtain ⟨-, hne, htrim⟩ := clean_of_mem_split hs
    have hhead := Text.head?_trim s
    have hlast := Text.getLast?_trimEnd (Text.trimStart s)
    rw [← Text.trim, htrim] at hlast
    rw [htrim] at hhead
    exact ⟨hne, hhead, hlast, split_of_mem_split hs⟩
  · rw [split_ofStatements_iff]
    constructor
    · intro hwhole q hq
      -- the statement that the literal is open in does not come back
      obtain ⟨s, hs, hopen⟩ := exists_mem_split_of_literal hq
      obtain ⟨ls, hls, hall⟩ := (hwhole s hs).lexemes
      obtain ⟨l, hl, hopen⟩ := (modeAfter_eq_literal_iff hls).mp hopen
      obtain ⟨hclean, hclosed⟩ := hall l hl
      rw [isOpen_of_isClean hclean] at hclosed
      exact Bool.false_ne_true (hclosed.symm.trans hopen)
    · intro hend
      obtain ⟨ls, hls⟩ := exists_lexes t
      refine whole_of_mem_split hls fun l hl => ?_
      by_contra hopen
      obtain ⟨q, hq⟩ := (modeAfter_eq_literal_iff hls).mpr ⟨l, hl, by simpa using hopen⟩
      exact hend q hq

-- between the dashes a comment is taken out, and the last literal is never closed
example : split "a -/*;*/- b; 'c ".toList = ["a - - b".toList, "'c".toList] ∧
    modeAfter .plain "a -/*;*/- b; 'c ".toList = .literal '\x27' := by
  decide

end Script
end SqlInterchange
