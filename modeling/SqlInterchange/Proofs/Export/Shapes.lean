import SqlInterchange.Export
import SqlInterchange.Proofs.Script.Squeezed
import SqlInterchange.Proofs.Statement.Definition

/-! # Both exports describe the same tables

A script has the definition of a table on one line, a document has the clause of the definition on
one line.  To read the clause from the one is to squeeze first and then to read, the other way
round than for the other.

The order does not matter.  Reading goes from left to right and stops only at characters that are
no blanks, so between two stops a run of blanks is passed over, or taken into a name in delimiters,
as one blank would be.  Only at the end of the text is a run of blanks lost altogether, and there
is no name behind it.  So each step of reading leaves of a text on one line what it leaves of the
text, on one line (`Levels`), and the steps compose.
-/
namespace SqlInterchange

/-! ## Texts on one line, from the left -/

namespace Text

theorem dropEndWhile_cons {p : Char → Bool} {c : Char} (hc : p c) (t : Text) :
    dropEndWhile p (c :: t) = if dropEndWhile p t = [] then [] else c :: dropEndWhile p t := by
  simp only [dropEndWhile, List.reverse_cons, List.dropWhile_append, List.reverse_eq_nil_iff]
  by_cases h : t.reverse.dropWhile p = []
  · simp [h, hc]
  · simp [h]

/-- A text on one line, trimmed at its end only; the flag says that a blank stands before it. -/
def level (afterBlank : Bool) (t : Text) : Text := trimEnd (collapseBlanks afterBlank t)

@[simp] theorem level_nil (afterBlank : Bool) : level afterBlank [] = [] := rfl

theorem level_cons {c : Char} (hc : isBlank c = false) (afterBlank : Bool) (t : Text) :
    level afterBlank (c :: t) = c :: level false t := by
  rw [level, collapseBlanks_cons afterBlank hc]
  exact trimEnd_append_cons [] _ hc

theorem collapseBlanks_blank {c : Char} (hc : isBlank c) (afterBlank : Bool) (t : Text) :
    collapseBlanks afterBlank (c :: t) =
      if afterBlank then collapseBlanks true t else ' ' :: collapseBlanks true t :=
  if_pos hc

/-- Where there are no blanks nothing changes. -/
theorem level_append {s : Text} (h : ∀ c ∈ s, isBlank c = false) (t : Text) :
    level false (s ++ t) = s ++ level false t := by
  induction s with
  | nil => rfl
  | cons c s ih =>
    obtain ⟨hc, hs⟩ := List.forall_mem_cons.mp h
    rw [List.cons_append, level_cons hc, ih hs, List.cons_append]

theorem collapseBlanks_eq_self {t : Text} (h : ∀ c ∈ t, isBlank c = false) :
    collapseBlanks false t = t := by
  induction t with
  | nil => rfl
  | cons c t ih =>
    obtain ⟨hc, ht⟩ := List.forall_mem_cons.mp h
    rw [collapseBlanks_cons false hc, ih ht]

/-- A blank leaves a space, unless one is there or nothing follows. -/
theorem level_blank {c : Char} (hc : isBlank c) (afterBlank : Bool) (t : Text) :
    level afterBlank (c :: t) =
      if level true t = [] then [] else if afterBlank then level true t else ' ' :: level true t := by
  rw [level, collapseBlanks_blank hc]
  cases afterBlank with
  | true =>
    rw [if_pos rfl, if_pos rfl]
    split
    · assumption
    · rfl
  | false => exact dropEndWhile_cons rfl _

theorem head?_level (t : Text) : ∀ d ∈ (level false t).head?, d ∈ t.head? ∨ d = ' ' := by
  intro d hd
  exact head?_collapseBlanks t d (head?_of_isPrefix (trimEnd_isPrefix _) d hd)

theorem trimStart_collapseBlanks (afterBlank : Bool) (t : Text) :
    trimStart (collapseBlanks afterBlank t) = collapseBlanks false (trimStart t) := by
  induction t generalizing afterBlank with
  | nil => rfl
  | cons c t ih =>
    by_cases hc : isBlank c
    · have hstart : trimStart (c :: t) = trimStart t := List.dropWhile_cons_of_pos hc
      rw [hstart, collapseBlanks_blank hc]
      split
      · exact ih true
      · exact (List.dropWhile_cons_of_pos rfl).trans (ih true)
    · have hc : isBlank c = false := by simpa using hc
      have hstop (u : Text) : trimStart (c :: u) = c :: u := List.dropWhile_cons_of_neg (by simp [hc])
      rw [collapseBlanks_cons afterBlank hc, hstop, hstop, collapseBlanks_cons false hc]

/-- A squeezed text is trimmed at its start, too. -/
theorem squeeze_eq (t : Text) : squeeze t = level false (trimStart t) := by
  rw [squeeze, trim, trimStart_collapseBlanks, level]

theorem trimStart_squeeze (t : Text) : trimStart (squeeze t) = squeeze t :=
  trimStart_eq_self (head?_trim _)

/-- After a blank the blanks at the start leave nothing. -/
theorem level_true (t : Text) : level true t = squeeze t := by
  rw [squeeze_eq]
  induction t with
  | nil => rfl
  | cons c t ih =>
    by_cases hc : isBlank c
    · have hstart : trimStart (c :: t) = trimStart t := List.dropWhile_cons_of_pos hc
      rw [hstart, ← ih, level_blank hc, if_pos rfl]
      split
      · next h => exact h.symm
      · rfl
    · have hc : isBlank c = false := by simpa using hc
      have hstart : trimStart (c :: t) = c :: t := List.dropWhile_cons_of_neg (by simp [hc])
      rw [hstart, level_cons hc, level_cons hc]

/-- Trimming at the end and collapsing blanks may change places. -/
theorem trimEnd_collapseBlanks (afterBlank : Bool) (t : Text) :
    trimEnd (collapseBlanks afterBlank t) = collapseBlanks afterBlank (trimEnd t) := by
  obtain ⟨dropped, ht, hdropped⟩ := exists_dropped isBlank t
  have hnone (afterBlank : Bool) : trimEnd (collapseBlanks afterBlank dropped) = [] := by
    refine dropEndWhile_eq_nil fun c hc => ?_
    rcases mem_collapseBlanks hc with rfl | ⟨hmem, -⟩
    · rfl
    · exact hdropped c hmem
  rcases List.eq_nil_or_concat (trimEnd t) with hnil | ⟨u, d, hu⟩
  · rw [hnil, ht, show dropEndWhile isBlank t = [] from hnil, List.nil_append, hnone]
    rfl
  · have hd : isBlank d = false := getLast?_trimEnd t d (by simp [hu])
    have htext : t = u ++ d :: dropped := by
      rw [ht, show dropEndWhile isBlank t = _ from hu]
      simp
    rw [hu, htext, collapseBlanks_append_cons _ _ hd, trimEnd_append_cons _ _ hd, hnone,
      List.concat_eq_append, collapseBlanks_append_cons _ _ hd, collapseBlanks]

theorem trim_collapseBlanks (t : Text) :
    trim (collapseBlanks false t) = collapseBlanks false (trim t) := by
  rw [trim, trimStart_collapseBlanks, trimEnd_collapseBlanks, trim]

theorem trim_level (t : Text) : trim (level false t) = squeeze t := by
  obtain ⟨dropped, ht, hdropped⟩ := exists_dropped isBlank (collapseBlanks false t)
  rw [squeeze, ht]
  exact (trim_append_blanks _ (List.all_eq_true.mpr hdropped)).symm

theorem squeeze_trim (t : Text) : squeeze (trim t) = squeeze t := by
  rw [squeeze, squeeze, trim_collapseBlanks, trim_collapseBlanks, trim_trim]

end Text

/-! ## Names on one line -/

namespace Identifier

theorem undouble_cons {quote c : Char} {t : Text} (h : c = quote → ∀ d ∈ t.head?, d ≠ quote) :
    undouble quote (c :: t) = c :: undouble quote t := by
  cases t with
  | nil => rfl
  | cons d t => rw [undouble, if_neg fun hboth => h hboth.1 d rfl hboth.2]

/-- Collapsing blanks makes no quotes neighbours and parts none. -/
theorem undouble_collapseBlanks {quote : Char} (hquote : Text.isBlank quote = false)
    (afterBlank : Bool) (t : Text) : undouble quote (Text.collapseBlanks afterBlank t) =
      Text.collapseBlanks afterBlank (undouble quote t) := by
  have hblank {c : Char} (hc : Text.isBlank c) : c ≠ quote := by
    rintro rfl
    exact Bool.false_ne_true (hquote.symm.trans hc)
  fun_induction undouble quote t generalizing afterBlank with
  | case1 c d cs hboth ih =>
    obtain ⟨rfl, rfl⟩ := hboth
    rw [Text.collapseBlanks_cons _ hquote, Text.collapseBlanks_cons _ hquote,
      undouble_cons_cons_self, ih, Text.collapseBlanks_cons _ hquote]
  | case2 c d cs hboth ih =>
    by_cases hc : Text.isBlank c
    · rw [Text.collapseBlanks_blank hc, Text.collapseBlanks_blank hc]
      cases afterBlank with
      | true => exact ih true
      | false => exact (undouble_cons_of_ne (hblank rfl) _).trans (congrArg _ (ih true))
    · have hc : Text.isBlank c = false := by simpa using hc
      have hnext : c = quote → ∀ e ∈ (Text.collapseBlanks false (d :: cs)).head?, e ≠ quote := by
        intro hself e he
        rcases Text.head?_collapseBlanks (d :: cs) e he with hd | rfl
        · obtain rfl : d = e := Option.some.inj hd
          exact fun hd => hboth ⟨hself, hd⟩
        · exact hblank rfl
      rw [Text.collapseBlanks_cons _ hc, undouble_cons hnext, ih, Text.collapseBlanks_cons _ hc]
  | case3 cs hshort =>
    match cs with
    | [] => rfl
    | [c] => simp only [Text.collapseBlanks]; split <;> [split; skip] <;> rfl
    | c :: d :: cs => exact absurd rfl (hshort c d cs)

theorem isBlank_of_closing? {first close : Char} (h : closing? first = some close) :
    Text.isBlank close = false := by
  rw [closing?] at h
  split at h
  · next hkind =>
    obtain rfl := Option.some.inj h
    rcases hkind with rfl | rfl <;> rfl
  · split at h
    · obtain rfl := Option.some.inj h
      rfl
    · cases h

theorem inside_collapseBlanks {close : Char} (hclose : Text.isBlank close = false) (body : Text) :
    inside close (Text.collapseBlanks false body) =
      Text.collapseBlanks false (inside close body) := by
  rw [inside, inside]
  split
  · rfl
  · exact undouble_collapseBlanks hclose false body

/-- A name that is read on one line is the name on one line. -/
theorem unescape_collapseBlanks (token : Text) :
    unescape (Text.collapseBlanks false token) = Text.collapseBlanks false (unescape token) := by
  have hends := Text.trim_collapseBlanks token
  have hfirst := Text.head?_trim token
  have hlast := Text.getLast?_trimEnd (Text.trimStart token)
  rw [unescape, unescape, hends]
  change ∀ c ∈ (Text.trim token).getLast?, _ at hlast
  generalize Text.trim token = t at hfirst hlast
  cases t with
  | nil => rfl
  | cons first rest =>
    have hblank : Text.isBlank first = false := hfirst first rfl
    rw [Text.collapseBlanks_cons false hblank]
    rcases List.eq_nil_or_concat rest with rfl | ⟨body, last, rfl⟩
    · cases hclose : closing? first <;> simp [Text.collapseBlanks, hclose, hblank]
    · have hend : Text.isBlank last = false := by
        refine hlast last ?_
        rw [List.concat_eq_append, ← List.cons_append, List.getLast?_concat]
        rfl
      have hrest : Text.collapseBlanks false (body.concat last) =
          Text.collapseBlanks false body ++ [last] := by
        rw [List.concat_eq_append]
        exact Text.collapseBlanks_append_cons false body hend []
      have hself : first :: (Text.collapseBlanks false body ++ [last]) =
          Text.collapseBlanks false (first :: body.concat last) := by
        rw [Text.collapseBlanks_cons false hblank, hrest]
      rw [hrest]
      simp only [List.concat_eq_append, List.getLast?_concat, List.dropLast_concat] at hself ⊢
      cases hclose : closing? first with
      | none => exact hself
      | some close =>
        simp only
        split
        · exact inside_collapseBlanks (isBlank_of_closing? hclose) body
        · exact hself

end Identifier

/-! ## Reading on one line -/

namespace TableDefinition

open Script (IsCapital)

theorem closeQuoted?_self {quote : Char} {t : Text} (h : ∀ d ∈ t.head?, d ≠ quote) :
    closeQuoted? quote (quote :: t) = some ([quote], t) := by
  cases t with
  | nil => simp [closeQuoted?]
  | cons d t => simp [closeQuoted?, h d rfl]

theorem closeQuoted?_self_self (quote : Char) (t : Text) :
    closeQuoted? quote (quote :: quote :: t) =
      some (((closeQuoted? quote t).map fun (name, rest) => (quote :: quote :: name, rest)).getD
        ([quote], quote :: t)) := by
  cases h : closeQuoted? quote t <;> simp [closeQuoted?, h]

/-- The parts of a text that a reader tells apart, on one line. -/
def levelParts (afterBlank : Bool) (parts : Text × Text) : Text × Text :=
  (Text.collapseBlanks afterBlank parts.1, Text.level false parts.2)

theorem levelParts_cons {c : Char} (hc : Text.isBlank c = false) (afterBlank : Bool)
    (name rest : Text) : levelParts afterBlank (c :: name, rest) =
      (c :: Text.collapseBlanks false name, Text.level false rest) := by
  rw [levelParts, Text.collapseBlanks_cons afterBlank hc]

/-- What a reader passes over is passed over on one line. -/
theorem passed_level {read : Text → Option (Text × Text)} (hnil : read [] = none) {c : Char}
    (hpass : ∀ d ∈ [c, ' '], ∀ t, read (d :: t) = (read t).map fun (name, rest) => (d :: name, rest))
    {t : Text} (ht : ∀ afterBlank, read (Text.level afterBlank t) =
      (read t).map (levelParts afterBlank)) (afterBlank : Bool) :
    read (Text.level afterBlank (c :: t)) = (read (c :: t)).map (levelParts afterBlank) := by
  have hc := hpass c (List.mem_cons_self ..)
  have hspace := hpass ' ' (by simp)
  rw [hc]
  by_cases hblank : Text.isBlank c
  · rw [Text.level_blank hblank]
    by_cases hend : Text.level true t = []
    · -- a run of blanks at the end, where there is nothing to read
      have hnone : read t = none := by
        have h := ht true
        rwa [hend, hnil, eq_comm, Option.map_eq_none_iff] at h
      rw [if_pos hend, hnil, hnone]
      rfl
    · rw [if_neg hend]
      cases afterBlank with
      | true =>
        rw [if_pos rfl, ht true, Option.map_map]
        refine congrArg (Option.map · _) (funext fun parts => ?_)
        simp [levelParts, Text.collapseBlanks_blank hblank]
      | false =>
        rw [if_neg Bool.false_ne_true, hspace, ht true, Option.map_map, Option.map_map]
        refine congrArg (Option.map · _) (funext fun parts => ?_)
        simp [levelParts, Text.collapseBlanks_blank hblank]
  · have hblank : Text.isBlank c = false := by simpa using hblank
    rw [Text.level_cons hblank, hc, ht false, Option.map_map, Option.map_map]
    refine congrArg (Option.map · _) (funext fun parts => ?_)
    simp [levelParts, Text.collapseBlanks_cons _ hblank]

/-- **The closing quote is found where it was.** -/
theorem closeQuoted?_level {quote : Char} (hquote : Text.isBlank quote = false) (afterBlank : Bool)
    (t : Text) : closeQuoted? quote (Text.level afterBlank t) =
      (closeQuoted? quote t).map (levelParts afterBlank) := by
  have hspace : ' ' ≠ quote := by
    rintro rfl
    cases hquote
  fun_induction closeQuoted? quote t generalizing afterBlank with
  | case1 => rfl
  | case2 c cs hc ih =>
    have hpass : ∀ d ∈ [c, ' '], ∀ t, closeQuoted? quote (d :: t) =
        (closeQuoted? quote t).map fun (name, rest) => (d :: name, rest) := by
      intro d hd
      rcases List.mem_pair.mp hd with rfl | rfl
      · exact closeQuoted?_cons_of_ne hc
      · exact closeQuoted?_cons_of_ne hspace
    rw [passed_level rfl hpass ih, closeQuoted?_cons_of_ne hc]
  | case3 c hc =>
    obtain rfl := not_not.mp hc
    rw [Text.level_cons hquote, closeQuoted?_self (by simp), Option.map_some,
      levelParts_cons hquote]
    rfl
  | case4 c hc d ds hd =>
    obtain rfl := not_not.mp hc
    rw [Text.level_cons hquote, closeQuoted?_self fun e he => ?_, Option.map_some,
      levelParts_cons hquote]
    · rfl
    · rcases Text.head?_level (d :: ds) e he with hself | rfl
      · exact Option.some.inj hself ▸ hd
      · exact hspace
  | case5 c hc d ds hd name rest hclosed ih =>
    obtain rfl := not_not.mp hc
    obtain rfl := not_not.mp hd
    rw [Text.level_cons hquote, Text.level_cons hquote, closeQuoted?_self_self, ih, hclosed]
    simp only [Option.map_some, Option.getD_some, levelParts_cons hquote,
      Text.collapseBlanks_cons _ hquote]
    rfl
  | case6 c hc d ds hd hopen ih =>
    obtain rfl := not_not.mp hc
    obtain rfl := not_not.mp hd
    rw [Text.level_cons hquote, Text.level_cons hquote, closeQuoted?_self_self, ih, hopen,
      Option.map_some, levelParts_cons hquote, Text.level_cons hquote]
    rfl

theorem closeBracketed?_level (afterBlank : Bool) (t : Text) :
    closeBracketed? (Text.level afterBlank t) =
      (closeBracketed? t).map (levelParts afterBlank) := by
  induction t generalizing afterBlank with
  | nil => rfl
  | cons c t ih =>
    by_cases hc : c = ']'
    · have hbracket : Text.isBlank ']' = false := rfl
      rw [hc, Text.level_cons hbracket, closeBracketed?, if_pos rfl, closeBracketed?, if_pos rfl,
        Option.map_some, levelParts_cons hbracket]
      rfl
    · refine passed_level rfl (fun d hd u => ?_) ih afterBlank
      rcases List.mem_pair.mp hd with rfl | rfl
      · rw [closeBracketed?, if_neg hc]
      · rw [closeBracketed?, if_neg (by decide)]

theorem delimited?_blank {c : Char} (hc : Text.isBlank c) (t : Text) : delimited? (c :: t) = none := by
  have hne : ∀ d, Text.isBlank d = false → c ≠ d := by
    rintro d hd rfl
    exact Bool.false_ne_true (hd.symm.trans hc)
  have hquote : ¬(c = '\x22' ∨ c = Identifier.backtick) := not_or.mpr ⟨hne _ rfl, hne _ rfl⟩
  simp only [delimited?, if_neg hquote, if_neg (hne '[' rfl)]
  rfl

theorem delimited?_level (t : Text) :
    delimited? (Text.level false t) = (delimited? t).map (levelParts false) := by
  cases t with
  | nil => rfl
  | cons c t =>
    by_cases hblank : Text.isBlank c
    · rw [delimited?_blank hblank, Text.level_blank hblank]
      split
      · rfl
      · exact delimited?_blank rfl _
    · have hblank : Text.isBlank c = false := by simpa using hblank
      rw [Text.level_cons hblank, delimited?, delimited?, Option.map_map]
      split_ifs
      · rw [closeQuoted?_level hblank, Option.map_map]
        exact congrArg (Option.map · _) (funext fun parts => (levelParts_cons hblank ..).symm)
      · rw [closeBracketed?_level, Option.map_map]
        exact congrArg (Option.map · _) (funext fun parts => (levelParts_cons hblank ..).symm)
      · rfl

theorem isBlank_of_isNameChar {c : Char} (h : isNameChar c) : Text.isBlank c = false := by
  simp only [isNameChar, Bool.not_eq_true', Bool.or_eq_false_iff] at h
  exact h.1

/-- A bare name has no blanks and ends where it ended. -/
theorem bare?_level (t : Text) : bare? (Text.level false t) = (bare? t).map (levelParts false) := by
  have hname : ∀ c ∈ t.takeWhile isNameChar, isNameChar c := fun _ => List.mem_takeWhile_imp
  have hink : ∀ c ∈ t.takeWhile isNameChar, Text.isBlank c = false := fun c hc =>
    isBlank_of_isNameChar (hname c hc)
  have hstop : ∀ c ∈ (Text.level false (t.dropWhile isNameChar)).head?, isNameChar c = false := by
    intro c hc
    rcases Text.head?_level _ c hc with hhead | rfl
    · have hrest := List.head?_dropWhile_not isNameChar t
      rw [Option.mem_def.mp hhead] at hrest
      simpa using hrest
    · rfl
  have hlevel : Text.level false t =
      t.takeWhile isNameChar ++ Text.level false (t.dropWhile isNameChar) := by
    rw [← Text.level_append hink, List.takeWhile_append_dropWhile]
  rw [hlevel, bare?_append hname hstop, bare?]
  split
  · rfl
  · rw [Option.map_some, levelParts, Text.collapseBlanks_eq_self hink]

theorem name?_level (t : Text) : name? (Text.level false t) = (name? t).map (levelParts false) := by
  rw [name?, name?, delimited?_level, bare?_level, Option.map_or]

/-! ## The words -/

/-- A reader that reads a text on one line as it reads the text. -/
structure Levels (read : Text → Option (Text × Text)) : Prop where
  nil : read [] = none
  level (t : Text) : read (Text.level false t) = (read t).map (levelParts false)

theorem levels_name? : Levels name? := ⟨rfl, name?_level⟩

theorem stripLetters?_level {letters : Text} (h : letters.all Char.isUpper) (t : Text) :
    Text.stripWord? letters (Text.level false t) =
      (Text.stripWord? letters t).map (Text.level false) := by
  induction letters generalizing t with
  | nil => rfl
  | cons letter letters ih =>
    obtain ⟨hletter, hletters⟩ := Bool.and_eq_true_iff.mp h
    have hink {c : Char} (hfold : Text.foldsTo letter c) : Text.isBlank c = false :=
      (Script.calm_of_foldsTo hletter hfold).2
    cases t with
    | nil => rfl
    | cons c t =>
      by_cases hfold : Text.foldsTo letter c
      · rw [Text.level_cons (hink hfold), Text.stripWord?, if_pos hfold, ih hletters,
          Text.stripWord?, if_pos hfold]
      · rw [Text.stripWord?, if_neg hfold, Option.map_none]
        cases hlevel : Text.level false (c :: t) with
        | nil => rfl
        | cons d u =>
          refine if_neg fun hd => ?_
          rcases Text.head?_level (c :: t) d (by simp [hlevel]) with hself | rfl
          · exact hfold (Option.some.inj hself ▸ hd)
          · cases hink hd

variable {read read' : Text → Option (Text × Text)}

/-- Blanks are skipped alike, if something must come behind them. -/
theorem Levels.stripBlanks (h : Levels read) (t : Text) :
    (Text.stripBlanks? (Text.level false t)).bind read =
      ((Text.stripBlanks? t).bind read).map (levelParts false) := by
  cases t with
  | nil => rfl
  | cons c t =>
    by_cases hc : Text.isBlank c
    · have hread : read (Text.squeeze t) = (read (Text.trimStart t)).map (levelParts false) := by
        rw [Text.squeeze_eq, h.level]
      rw [Text.level_blank hc, Text.level_true, Text.stripBlanks?, if_pos hc, Option.bind_some,
        ← hread]
      split
      · next hend =>
        rw [hend, h.nil]
        rfl
      · show read (Text.trimStart (Text.squeeze t)) = _
        rw [Text.trimStart_squeeze]
    · have hc : Text.isBlank c = false := by simpa using hc
      rw [Text.level_cons hc]
      simp [Text.stripBlanks?, hc]

theorem Levels.stripWord (h : Levels read) {word : String} (hword : IsCapital word) :
    Levels fun t => (stripWord? word t).bind read where
  nil := by
    obtain ⟨letter, letters, hletters⟩ := List.exists_cons_of_ne_nil hword.1
    rw [stripWord?, hletters]
    rfl
  level t := by
    rw [stripWord?, stripWord?, stripLetters?_level hword.2]
    cases Text.stripWord? word.toList t with
    | none => rfl
    | some rest => exact h.stripBlanks rest

theorem Levels.stripWords (h : Levels read) {words : List String}
    (hwords : ∀ word ∈ words, IsCapital word) : Levels fun t => (stripWords? words t).bind read := by
  induction words with
  | nil => exact h
  | cons word words ih =>
    obtain ⟨hword, hwords⟩ := List.forall_mem_cons.mp hwords
    simpa only [stripWords?, Option.bind_assoc] using (ih hwords).stripWord hword

theorem Levels.or (h : Levels read) (h' : Levels read') :
    Levels fun t => (read t).or (read' t) where
  nil := by rw [h.nil, h'.nil, Option.or_none]
  level t := by rw [h.level, h'.level, Option.map_or]

theorem levels_target? : Levels target? := by
  have hkeeps : Levels fun t => (stripWords? ["IF", "NOT", "EXISTS"] t).bind name? :=
    levels_name?.stripWords (by decide)
  have htarget : target? =
      fun t => ((stripWords? ["IF", "NOT", "EXISTS"] t).bind name?).or (name? t) :=
    funext fun t => by rw [target?, stripIfNotExists?_eq]
  rw [htarget]
  exact hkeeps.or levels_name?

/-- **Squeezing and reading may change places.** -/
theorem parse?_squeeze (sql : Text) : parse? (Text.squeeze sql) =
    (parse? sql).map fun (name, clause) =>
      (Text.collapseBlanks false name, Text.squeeze clause) := by
  have hread : Levels fun t => (stripWords? ["CREATE", "TABLE"] t).bind target? :=
    levels_target?.stripWords (by decide)
  rw [parse?_eq, parse?_eq, Text.trimStart_squeeze, Text.squeeze_eq, hread.level, Option.map_map,
    Option.map_map]
  refine congrArg (Option.map · _) (funext fun (token, clause) => ?_)
  show (Identifier.unescape (Text.collapseBlanks false token), Text.trim (Text.level false clause)) =
    (Text.collapseBlanks false (Identifier.unescape token), Text.squeeze (Text.trim clause))
  rw [Identifier.unescape_collapseBlanks, Text.trim_level, Text.squeeze_trim]

end TableDefinition

/-! ## Exports -/

namespace Snapshot

/-- The clauses of the tables as a script has them: of each definition of a table, what is read in
the last of its statements, the one that makes the table. -/
def writtenClauses (ds : List Catalog.Definition) : List (Text × Text) :=
  (ds.filter (·.isTable)).filterMap fun d =>
    ((definitionStatements d).getLast?.bind TableDefinition.parse?).map fun (_, clause) =>
      (d.name, clause)

theorem clause?_eq {d : Catalog.Definition} (h : d.isTable) : d.clause? =
    ((definitionStatements d).getLast?.bind TableDefinition.parse?).map Prod.snd := by
  rw [definitionStatements, List.getLast?_concat, Option.bind_some, TableDefinition.parse?_squeeze,
    Option.map_map, Catalog.Definition.clause?, if_pos h]
  rfl

theorem tableClauses_eq (ds : List Catalog.Definition) : tableClauses ds = writtenClauses ds := by
  rw [tableClauses, writtenClauses, List.filterMap_filter]
  refine List.filterMap_congr fun d _ => ?_
  by_cases h : d.isTable
  · rw [if_pos h, clause?_eq h, Option.map_map]
    rfl
  · rw [if_neg h, Catalog.Definition.clause?, if_neg h]
    rfl

/-- **Main.**  A definition on one line is that of a table if and only if the definition is, and
its name and its clause are those of the definition on one line.  So the tables of an exported
document have the clauses that are read in the statements of the exported script which make them. -/
theorem exports_describe_same_tables :
    (∀ sql, TableDefinition.parse? (Text.squeeze sql) =
      (TableDefinition.parse? sql).map fun (name, clause) =>
        (Text.collapseBlanks false name, Text.squeeze clause)) ∧
    ∀ (x : Snapshot) (includeChanges : Bool),
      (∃ schema, (x.toDocument true includeChanges).document.schema? = some schema ∧
        schema.tables = .ofList (writtenClauses x.definitions)) ∧
      ∀ d ∈ x.definitions, ∀ statement ∈ definitionStatements d,
        statement ∈ x.toScript.statements := by
  refine ⟨TableDefinition.parse?_squeeze, fun x includeChanges => ⟨?_, fun d hd statement h => ?_⟩⟩
  · exact ⟨_, rfl, congrArg OrderedMap.ofList (tableClauses_eq x.definitions)⟩
  · exact List.mem_append_left _ (List.mem_flatMap_of_mem hd h)

/-- A name with two blanks and a clause on two lines. -/
example : TableDefinition.parse?
    (Text.squeeze "create\ttable [my  table]\n (a,\n  b)\n".toList) =
      some ("my table".toList, "(a, b)".toList) := by decide

end Snapshot
end SqlInterchange
