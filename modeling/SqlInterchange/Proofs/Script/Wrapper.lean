import Mathlib.Data.List.Forall2
import SqlInterchange.Proofs.Script.Stable
import SqlInterchange.Proofs.Statement.Rendered
import SqlInterchange.Sql.Script.Wrapper

/-! # Wrapped scripts

Where a scan is outside literals and comments a semicolon puts two scripts together: nothing of the
first is still to be read, so the statements are those of the one and then those of the other
(`split_append_semicolon`).

A dump is a script between two statements of its own, which open a transaction and commit it.  These
are words with blanks between them (`IsOpening`, `IsClosing`).  A script between two such statements
is read as the one, its own statements, and the other, and only the two are taken off
(`unwrap_split_wrapped`).
-/
namespace SqlInterchange

namespace Script

/-! ## Two scripts -/

/-- **A semicolon outside literals and comments separates two scripts.** -/
theorem split_append_semicolon {a : Text} (h : modeAfter .plain a = .plain) (b : Text) :
    split (a ++ ';' :: b) = split a ++ split b := by
  obtain ⟨pieces, last, ha, hall⟩ := piecesFrom_append .plain a (c := ';') (by decide) b
  have hcut : piecesFrom .plain (';' :: b) = [] :: piecesFrom .plain b := piecesFrom_cut rfl
  rw [h, hcut, prepend_cons, List.append_nil, List.append_cons pieces, ← ha] at hall
  rw [split_eq_fromPieces, hall, fromPieces_append]
  rfl

/-! ## Words -/

/-- Whether a text is a word, written here in capitals, in any letter case. -/
def IsWord (word : String) (t : Text) : Prop :=
  List.Forall₂ (fun letter c => Text.foldsTo letter c) word.toList t

/-- A text in small letters, capitals or both. -/
theorem IsWord.of_map {word : String} {t : Text} (h : t.map Char.toUpper = word.toList) :
    IsWord word t := by
  rw [IsWord, ← h, List.forall₂_map_left_iff, List.forall₂_same]
  exact fun c _ => by simp [Text.foldsTo]

/-- `Trails words t`: the text consists of the words, each behind one or more blanks. -/
inductive Trails : List String → Text → Prop
  | nil : Trails [] []
  | cons {word : String} {words : List String} {gap w t : Text} (hne : gap ≠ [])
    (hgap : gap.all Text.isBlank) (hw : IsWord word w) (ht : Trails words t) :
    Trails (word :: words) (gap ++ (w ++ t))

/-- `Phrase first others t`: the text consists of these words, with blanks between neighbours and
perhaps around them. -/
inductive Phrase (first : String) (others : List String) : Text → Prop
  | mk {before w t behind : Text} (hbefore : before.all Text.isBlank) (hw : IsWord first w)
    (ht : Trails others t) (hbehind : behind.all Text.isBlank) :
    Phrase first others (before ++ (w ++ t) ++ behind)

/-- Whether a text says to open a transaction: `BEGIN`, then a kind and `TRANSACTION`, each of which
may be missing. -/
def IsOpening (t : Text) : Prop :=
  ∃ kind ∈ [[], ["DEFERRED"], ["IMMEDIATE"], ["EXCLUSIVE"]], ∃ noun ∈ [[], ["TRANSACTION"]],
    Phrase "BEGIN" (kind ++ noun) t

/-- Whether a text says to commit a transaction: `COMMIT` or `END`, then perhaps `TRANSACTION`. -/
def IsClosing (t : Text) : Prop :=
  ∃ verb ∈ ["COMMIT", "END"], ∃ noun ∈ [[], ["TRANSACTION"]], Phrase verb noun t

/-- A script between two statements. -/
def wrapped (leading script trailing : Text) : Text :=
  leading ++ separator ++ script ++ separator ++ trailing ++ [';']

/-! ## What is in a word -/

/-- Whether a word is written in capitals. -/
def IsCapital (word : String) : Prop := word.toList ≠ [] ∧ word.toList.all Char.isUpper

instance (word : String) : Decidable (IsCapital word) := inferInstanceAs (Decidable (_ ∧ _))

theorem isAlpha_of_toUpper {c : Char} (h : c.toUpper.isUpper) : c.isAlpha := by
  refine Bool.or_eq_true_iff.mpr ?_
  by_cases hlower : 'a'.val ≤ c.val ∧ c.val ≤ 'z'.val
  · exact .inr (Bool.and_eq_true_iff.mpr ⟨decide_eq_true hlower.1, decide_eq_true hlower.2⟩)
  · have hself : c.toUpper = c := dif_neg hlower
    exact .inl (hself ▸ h)

/-- What stands for a letter has no meaning for the scanner and is no blank. -/
theorem calm_of_foldsTo {letter c : Char} (hletter : letter.isUpper) (h : Text.foldsTo letter c) :
    isCalm c ∧ Text.isBlank c = false := by
  have hcases : c.toUpper = letter ∨ c ∈ ['\u0130', '\u0131', '\u017f'] := by
    simp only [Text.foldsTo, Bool.or_eq_true, Bool.and_eq_true, beq_iff_eq] at h
    simp only [List.mem_cons, List.not_mem_nil, or_false]
    tauto
  rcases hcases with rfl | hspecial
  · have halnum : c.isAlphanum := by simp [Char.isAlphanum, isAlpha_of_toUpper hletter]
    exact ⟨isCalm_of_isAlphanum halnum, Text.isBlank_of_isAlphanum halnum⟩
  · simp only [List.mem_cons, List.not_mem_nil, or_false] at hspecial
    rcases hspecial with rfl | rfl | rfl <;> exact ⟨rfl, rfl⟩

theorem IsWord.calm {word : String} {w : Text} (hword : IsCapital word) (h : IsWord word w) :
    w ≠ [] ∧ ∀ c ∈ w, isCalm c ∧ Text.isBlank c = false := by
  obtain ⟨hne, hcapital⟩ := hword
  refine ⟨?_, ?_⟩
  · rintro rfl
    exact hne (List.forall₂_nil_right_iff.mp h)
  · rw [IsWord] at h
    generalize word.toList = letters at h hcapital
    induction h with
    | nil => exact fun _ hc => absurd hc List.not_mem_nil
    | cons hfold _ ih =>
      obtain ⟨hletter, hcapital⟩ := Bool.and_eq_true_iff.mp hcapital
      exact List.forall_mem_cons.mpr ⟨calm_of_foldsTo hletter hfold, ih hcapital⟩

/-! ## Phrases are statements -/

variable {word first : String} {words others : List String} {w t rest : Text}

theorem takes_blanks {blanks : Text} (h : blanks.all Text.isBlank) (rest : Text) :
    ∃ kept, Takes rest .plain blanks kept .plain ∧ kept.all Text.isBlank ∧
      (blanks ≠ [] → kept ≠ []) := by
  induction blanks with
  | nil => exact ⟨[], .nil _, rfl, id⟩
  | cons c blanks ih =>
    obtain ⟨hc, hblanks⟩ := Bool.and_eq_true_iff.mp h
    obtain ⟨kept, htakes, hkept, -⟩ := ih hblanks
    obtain ⟨d, hd, hstep⟩ := plainStep_blank hc (blanks ++ rest).head?
    exact ⟨[d] ++ kept, .cons [d] .plain hstep htakes, Bool.and_eq_true_iff.mpr ⟨hd, hkept⟩,
      fun _ => List.cons_ne_nil d kept⟩

theorem IsWord.takes (hword : IsCapital word) (h : IsWord word w) (rest : Text) :
    Takes rest .plain w w .plain :=
  .calm (List.all_eq_true.mpr fun c hc => ((h.calm hword).2 c hc).1) rest

/-- What the scanner keeps of words with blanks in front of them is the words, with blanks in
front of them. -/
theorem Trails.takes (h : Trails words t) (hwords : ∀ word ∈ words, IsCapital word)
    (rest : Text) : ∃ kept, Takes rest .plain t kept .plain ∧ Trails words kept := by
  induction h with
  | nil => exact ⟨[], .nil _, .nil⟩
  | @cons word words gap w t hne hgap hw ht ih =>
    obtain ⟨hword, hwords⟩ := List.forall_mem_cons.mp hwords
    obtain ⟨kept, htakes, hkept⟩ := ih hwords
    obtain ⟨gap', hgaptakes, hgap', hne'⟩ := takes_blanks hgap (w ++ t ++ rest)
    exact ⟨gap' ++ (w ++ kept), hgaptakes.append ((hw.takes hword _).append htakes),
      .cons (hne' hne) hgap' hw hkept⟩

/-- A word begins with a character that is no blank. -/
theorem IsWord.head? (hword : IsCapital word) (h : IsWord word w) (t : Text) :
    ∀ c ∈ (w ++ t).head?, Text.isBlank c = false := by
  obtain ⟨hne, hall⟩ := h.calm hword
  obtain ⟨d, w, rfl⟩ := List.exists_cons_of_ne_nil hne
  intro c hc
  obtain rfl : d = c := Option.some.inj hc
  exact (hall d (List.mem_cons_self ..)).2

/-- A word, with others behind it, ends in a character that is no blank. -/
theorem Trails.getLast? (h : Trails words t) (hwords : ∀ word ∈ words, IsCapital word)
    (hword : IsCapital word) (hw : IsWord word w) :
    ∀ c ∈ (w ++ t).getLast?, Text.isBlank c = false := by
  induction h generalizing word w with
  | nil =>
    rw [List.append_nil]
    exact fun c hc => ((hw.calm hword).2 c (List.mem_of_getLast? hc)).2
  | @cons next words gap w' t hne hgap hw' ht ih =>
    obtain ⟨hnext, hwords⟩ := List.forall_mem_cons.mp hwords
    have hbehind : w' ++ t ≠ [] := fun h => (hw'.calm hnext).1 (List.append_eq_nil_iff.mp h).1
    rw [← List.append_assoc, List.getLast?_append_of_ne_nil _ hbehind]
    exact ih hwords hnext hw'

theorem Trails.trim_eq (h : Trails others t) (hothers : ∀ word ∈ others, IsCapital word)
    (hfirst : IsCapital first) (hw : IsWord first w) : Text.trim (w ++ t) = w ++ t :=
  Text.trim_eq_self (hw.head? hfirst t) (h.getLast? hothers hfirst hw)

/-- **A phrase is one statement**, without the blanks around it, and nothing is open behind it. -/
theorem Phrase.split_eq (h : Phrase first others t) (hfirst : IsCapital first)
    (hothers : ∀ word ∈ others, IsCapital word) :
    modeAfter .plain t = .plain ∧
      ∃ w rest, IsWord first w ∧ Trails others rest ∧ split t = [w ++ rest] := by
  obtain @⟨before, w, t, behind, hbefore, hw, ht, hbehind⟩ := h
  have hstatement (rest : Text) : ∃ kept, Takes rest .plain (w ++ t) (w ++ kept) .plain ∧
      Trails others kept := by
    obtain ⟨kept, htakes, hkept⟩ := ht.takes hothers rest
    exact ⟨kept, (hw.takes hfirst _).append htakes, hkept⟩
  constructor
  · obtain ⟨_, hbehind, -⟩ := takes_blanks hbehind []
    obtain ⟨_, hmiddle, -⟩ := hstatement (behind ++ [])
    obtain ⟨_, hbefore, -⟩ := takes_blanks hbefore (w ++ t ++ (behind ++ []))
    have hall := (hbefore.append hmiddle).append hbehind
    simpa using hall.modeAfter_eq
  · obtain ⟨kept, htakes, hkept⟩ := hstatement []
    refine ⟨w, kept, hw, hkept, ?_⟩
    have hne : w ++ kept ≠ [] := fun h => (hw.calm hfirst).1 (List.append_eq_nil_iff.mp h).1
    have hpieces : piecesFrom .plain (w ++ t) = [w ++ kept] := by
      simpa using htakes.piecesFrom_eq
    rw [← split_trim, Text.trim_append_append hbefore (ht.trim_eq hothers hfirst hw) hbehind,
      split_eq_fromPieces, hpieces]
    simp [fromPieces, hkept.trim_eq hothers hfirst hw, hne]

/-! ## Phrases are recognised -/

theorem stripWord?_append (h : IsWord word w) (t : Text) :
    Text.stripWord? word.toList (w ++ t) = some t := by
  rw [IsWord] at h
  generalize word.toList = letters at h
  induction h with
  | nil => rfl
  | cons hfold _ ih => rw [List.cons_append, Text.stripWord?, if_pos hfold, ih]

/-- What is stripped is the word. -/
theorem exists_of_stripWord? (h : Text.stripWord? word.toList t = some rest) :
    ∃ w, IsWord word w ∧ t = w ++ rest := by
  simp only [IsWord]
  generalize word.toList = letters at h
  induction letters generalizing t with
  | nil => exact ⟨[], .nil, Option.some.inj h⟩
  | cons letter letters ih =>
    cases t with
    | nil => cases h
    | cons c t =>
      rw [Text.stripWord?] at h
      split at h
      · next hfold =>
        obtain ⟨w, hw, rfl⟩ := ih h
        exact ⟨c :: w, .cons hfold hw, rfl⟩
      · cases h

theorem stripNextWord?_eq_some_iff (hword : IsCapital word) :
    stripNextWord? word t = some rest ↔
      ∃ gap w, gap ≠ [] ∧ gap.all Text.isBlank ∧ IsWord word w ∧ t = gap ++ (w ++ rest) := by
  rw [stripNextWord?, Option.bind_eq_some_iff]
  constructor
  · rintro ⟨behind, hbehind, hrest⟩
    obtain ⟨⟨gap, hgap, hne, rfl⟩, -⟩ := Text.stripBlanks?_eq_some_iff.mp hbehind
    obtain ⟨w, hw, rfl⟩ := exists_of_stripWord? hrest
    exact ⟨gap, w, hne, hgap, hw, rfl⟩
  · rintro ⟨gap, w, hne, hgap, hw, rfl⟩
    exact ⟨w ++ rest, Text.stripBlanks?_eq_some_iff.mpr
      ⟨⟨gap, hgap, hne, rfl⟩, hw.head? hword rest⟩, stripWord?_append hw rest⟩

theorem exists_trails_nil_iff : (∃ w, Trails [] w ∧ t = w ++ rest) ↔ t = rest := by
  constructor
  · rintro ⟨w, hw, rfl⟩
    cases hw
    rfl
  · rintro rfl
    exact ⟨[], .nil, rfl⟩

/-- Words are stripped one by one. -/
theorem exists_trails_cons_iff (hword : IsCapital word) :
    (∃ w, Trails (word :: words) w ∧ t = w ++ rest) ↔
      ∃ behind, stripNextWord? word t = some behind ∧
        ∃ w, Trails words w ∧ behind = w ++ rest := by
  simp only [stripNextWord?_eq_some_iff hword]
  constructor
  · rintro ⟨_, htrails, rfl⟩
    cases htrails with
    | @cons _ _ gap w behind hne hgap hw hbehind =>
      exact ⟨behind ++ rest, ⟨gap, w, hne, hgap, hw, by simp⟩, behind, hbehind, rfl⟩
  · rintro ⟨_, ⟨gap, w, hne, hgap, hw, rfl⟩, behind, hbehind, rfl⟩
    exact ⟨gap ++ (w ++ behind), .cons hne hgap hw hbehind, by simp⟩

theorem Trails.stripNextWord? (h : Trails (word :: words) t) (hword : IsCapital word) :
    ∃ rest, Script.stripNextWord? word t = some rest ∧ Trails words rest := by
  cases h with
  | @cons _ _ gap w t hne hgap hw ht =>
    exact ⟨t, (stripNextWord?_eq_some_iff hword).mpr ⟨gap, w, hne, hgap, hw, rfl⟩, ht⟩

/-- What may end a statement that opens or commits a transaction is accepted there. -/
theorem isTransactionEnd_of_trails {noun : List String} (hnoun : noun ∈ [[], ["TRANSACTION"]])
    (h : Trails noun t) : isTransactionEnd t := by
  simp only [List.mem_cons, List.not_mem_nil, or_false] at hnoun
  rcases hnoun with rfl | rfl
  · cases h
    rfl
  · obtain ⟨rest, hstrip, hrest⟩ := h.stripNextWord? (by decide)
    cases hrest
    rw [isTransactionEnd, hstrip, Bool.or_eq_true]
    exact .inr rfl

theorem IsOpening.split_eq (h : IsOpening t) :
    modeAfter .plain t = .plain ∧ ∃ s, split t = [s] ∧ opensTransaction s := by
  obtain ⟨kind, hkind, noun, hnoun, hphrase⟩ := h
  have hcapital : ∀ kind ∈ [[], ["DEFERRED"], ["IMMEDIATE"], ["EXCLUSIVE"]],
      ∀ noun ∈ [[], ["TRANSACTION"]], ∀ word ∈ kind ++ noun, IsCapital word := by
    decide
  obtain ⟨hmode, w, rest, hw, hrest, hsplit⟩ :=
    hphrase.split_eq (by decide) (hcapital kind hkind noun hnoun)
  refine ⟨hmode, w ++ rest, hsplit, ?_⟩
  rw [opensTransaction, stripWord?_append hw, Option.any_some, Bool.or_eq_true]
  obtain rfl | ⟨k, hk, rfl⟩ : kind = [] ∨ ∃ k ∈ transactionKinds, kind = [k] := by
    simpa [transactionKinds] using hkind
  · exact .inl (isTransactionEnd_of_trails hnoun hrest)
  · obtain ⟨rest', hstrip, hrest'⟩ :=
      hrest.stripNextWord? (hcapital [k] hkind noun hnoun k (List.mem_cons_self ..))
    refine .inr (List.any_eq_true.mpr ⟨k, hk, ?_⟩)
    rw [hstrip, Option.any_some]
    exact isTransactionEnd_of_trails hnoun hrest'

theorem IsClosing.split_eq (h : IsClosing t) :
    modeAfter .plain t = .plain ∧ ∃ s, split t = [s] ∧ commitsTransaction s := by
  obtain ⟨verb, hverb, noun, hnoun, hphrase⟩ := h
  have hverbs : ∀ verb ∈ ["COMMIT", "END"], IsCapital verb := by decide
  have hnouns : ∀ noun ∈ [[], ["TRANSACTION"]], ∀ word ∈ noun, IsCapital word := by decide
  obtain ⟨hmode, w, rest, hw, hrest, hsplit⟩ :=
    hphrase.split_eq (hverbs verb hverb) (hnouns noun hnoun)
  refine ⟨hmode, w ++ rest, hsplit, ?_⟩
  rw [commitsTransaction, List.any_eq_true]
  refine ⟨verb, hverb, ?_⟩
  rw [stripWord?_append hw, Option.any_some]
  exact isTransactionEnd_of_trails hnoun hrest

/-! ## Wrapped scripts -/

/-- Only the statements at the ends are taken off, whatever is between them. -/
theorem unwrap_wrapped {opening closing : Text} (hopening : opensTransaction opening)
    (hclosing : commitsTransaction closing) (statements : List Text) :
    unwrap (opening :: (statements ++ [closing])) = statements := by
  simp [unwrap, hopening, hclosing]

/-- **A script between a statement that opens a transaction and one that commits it is unwrapped to
its own statements.** -/
theorem unwrap_split_wrapped {leading script trailing : Text} (hleading : IsOpening leading)
    (hscript : modeAfter .plain script = .plain) (htrailing : IsClosing trailing) :
    unwrap (split (wrapped leading script trailing)) = split script := by
  obtain ⟨hmode, opening, hsplit, hopening⟩ := hleading.split_eq
  obtain ⟨hmode', closing, hsplit', hclosing⟩ := htrailing.split_eq
  have hbreak (t : Text) : split ('\n' :: t) = split t := split_cons_blank rfl t
  have hscript' : modeAfter .plain ('\n' :: script) = .plain :=
    (modeAfter_cons_blank rfl script).trans hscript
  have htrailing' : modeAfter .plain ('\n' :: trailing) = .plain :=
    (modeAfter_cons_blank rfl trailing).trans hmode'
  have hwrapped : wrapped leading script trailing =
      leading ++ ';' :: ('\n' :: script ++ ';' :: ('\n' :: trailing ++ ';' :: [])) := by
    simp [wrapped, separator]
  have hstatements : split (wrapped leading script trailing) =
      opening :: (split script ++ [closing]) := by
    rw [hwrapped, split_append_semicolon hmode, split_append_semicolon hscript',
      split_append_semicolon htrailing', hbreak, hbreak, hsplit, hsplit']
    rfl
  rw [hstatements, unwrap_wrapped hopening hclosing]

end Script
end SqlInterchange
