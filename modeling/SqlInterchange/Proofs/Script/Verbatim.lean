import SqlInterchange.Proofs.Script.Scanner
import SqlInterchange.Proofs.Text.Trim

/-! # Text that survives a script

A text is *verbatim* when the scanner copies it as it stands, whatever follows, and afterwards
goes on as if it had not been there.  Characters without a meaning of their own are verbatim, and so
is a literal whose inner quotes are doubled: between the two halves of a doubled quote the scanner
is in the plain mode for a moment, but the character it sees there is the second half.  Verbatim
texts stay verbatim when they are put together.

A statement is *intact* when it is verbatim, has no blanks around it and is not empty.  Intact
statements survive a script: split, the script of some intact statements gives just these
(`split_ofStatements`).
-/
namespace SqlInterchange.Identifier

@[simp] theorem double_nil (q : Char) : double q [] = [] := rfl

theorem double_cons_self (q : Char) (t : Text) : double q (q :: t) = q :: q :: double q t := by
  simp [double]

theorem double_cons_of_ne {q c : Char} (h : c ≠ q) (t : Text) :
    double q (c :: t) = c :: double q t := by
  simp [double, h]

/-- Where there is no quote none is doubled. -/
theorem double_eq_self {q : Char} {t : Text} (h : q ∉ t) : double q t = t := by
  induction t with
  | nil => rfl
  | cons c t ih =>
    obtain ⟨hc, ht⟩ := not_or.mp (List.mem_cons.not.mp h)
    rw [double_cons_of_ne (Ne.symm hc), ih ht]

end SqlInterchange.Identifier

namespace SqlInterchange.Script

/-! ## Verbatim text -/

/-- Whether the scanner copies a text as it stands, whatever follows it. -/
def Verbatim (t : Text) : Prop :=
  ∀ rest, piecesFrom .plain (t ++ rest) = prepend t (piecesFrom .plain rest)

/-- Whether a character neither opens a lexeme, nor ends a statement or a line. -/
def isCalm (c : Char) : Bool :=
  !(isQuote c || Text.isLineBreak c || c == ';' || c == '-' || c == '/')

/-- Outside literals and comments calm text is copied. -/
theorem Takes.calm {t : Text} (h : t.all isCalm) (rest : Text) : Takes rest .plain t t .plain := by
  induction t with
  | nil => exact .nil _
  | cons c t ih =>
    obtain ⟨hc, ht⟩ : isCalm c ∧ t.all isCalm := by simpa using h
    have hstep : plainStep c (t ++ rest).head? = .keep [c] .plain := by
      simp only [isCalm, Bool.not_eq_true', Bool.or_eq_false_iff, beq_eq_false_iff_ne] at hc
      simp [plainStep, hc]
    exact .cons [c] .plain hstep (ih ht)

namespace Verbatim

variable {s t : Text}

theorem nil : Verbatim [] := fun rest => (prepend_nil (piecesFrom_ne_nil _ rest)).symm

theorem append (hs : Verbatim s) (ht : Verbatim t) : Verbatim (s ++ t) := by
  intro rest
  rw [List.append_assoc, hs, ht, prepend_prepend]

theorem of_calm (h : t.all isCalm) : Verbatim t := fun rest => (Takes.calm h rest).piecesFrom_eq

theorem joinWith {separator : String} (hsep : separator.toList.all isCalm) {parts : List Text}
    (h : ∀ part ∈ parts, Verbatim part) : Verbatim (Text.joinWith separator parts) := by
  rw [Text.joinWith]
  induction parts with
  | nil => exact nil
  | cons part parts ih =>
    have hpart := h part (List.mem_cons_self ..)
    have hparts := ih fun p hp => h p (List.mem_cons_of_mem _ hp)
    cases parts with
    | nil => simpa using hpart
    | cons next parts =>
      rw [List.intercalate_cons_cons]
      exact (hpart.append (of_calm hsep)).append hparts

/-- **Nothing between quotes gets out of them**, if the quotes in it are doubled. -/
theorem quoted {q : Char} (hq : isQuote q) (body : Text) :
    Verbatim (q :: Identifier.double q body ++ [q]) := by
  intro rest
  have hinside : Takes rest (.literal q) (Identifier.double q body ++ [q])
      (Identifier.double q body ++ [q]) .plain := by
    induction body with
    | nil => exact .single (by simp [step])
    | cons c body ih =>
      by_cases hc : c = q
      · -- the first half closes the literal, the second one opens it again
        subst hc
        rw [Identifier.double_cons_self]
        exact .cons [c] .plain (by simp [step]) (.cons [c] (.literal c) (plainStep_quote hq _) ih)
      · rw [Identifier.double_cons_of_ne hc]
        exact .cons [c] (.literal q) (by simp [step, hc]) ih
  have hall : Takes rest .plain (q :: Identifier.double q body ++ [q])
      (q :: Identifier.double q body ++ [q]) .plain :=
    .cons [q] (.literal q) (plainStep_quote hq _) hinside
  exact hall.piecesFrom_eq

end Verbatim

/-! ## Intact statements -/

/-- Whether a text is verbatim and ends in a character that is no blank. -/
structure Firm (t : Text) : Prop where
  verbatim : Verbatim t
  ends : ∃ last ∈ t.getLast?, Text.isBlank last = false

namespace Firm

variable {s t : Text}

theorem append (hs : Verbatim s) (ht : Firm t) : Firm (s ++ t) := by
  obtain ⟨last, hlast, hink⟩ := ht.ends
  exact ⟨hs.append ht.verbatim, last, List.mem_getLast?_append_of_mem_getLast? hlast, hink⟩

theorem of_calm (h : t.all isCalm) (hends : ∃ last ∈ t.getLast?, Text.isBlank last = false) :
    Firm t :=
  ⟨.of_calm h, hends⟩

theorem quoted {q : Char} (hq : isQuote q) (hink : Text.isBlank q = false) (body : Text) :
    Firm (q :: Identifier.double q body ++ [q]) :=
  ⟨.quoted hq body, q, List.getLast?_concat, hink⟩

theorem joinWith {separator : String} (hsep : separator.toList.all isCalm) {parts : List Text}
    (hne : parts ≠ []) (h : ∀ part ∈ parts, Firm part) : Firm (Text.joinWith separator parts) := by
  induction parts with
  | nil => exact absurd rfl hne
  | cons part parts ih =>
    have hpart := h part (List.mem_cons_self ..)
    cases parts with
    | nil => simpa [Text.joinWith] using hpart
    | cons next parts =>
      have hparts := ih (by simp) fun p hp => h p (List.mem_cons_of_mem _ hp)
      rw [Text.joinWith, List.intercalate_cons_cons]
      exact append (hpart.verbatim.append (.of_calm hsep)) hparts

theorem append_flatMap {α : Type} {f : α → Text} {as : List α} (hs : Firm s)
    (h : ∀ a ∈ as, Firm (f a)) : Firm (s ++ as.flatMap f) := by
  induction as generalizing s with
  | nil => simpa using hs
  | cons a as ih =>
    rw [List.flatMap_cons, ← List.append_assoc]
    exact ih (append hs.verbatim (h a (List.mem_cons_self ..)))
      fun b hb => h b (List.mem_cons_of_mem _ hb)

end Firm

/-- Whether a statement survives a script: the scanner copies it, and there is nothing to trim. -/
structure Intact (s : Text) : Prop extends Firm s where
  starts : ∃ first ∈ s.head?, Text.isBlank first = false

namespace Intact

variable {s : Text}

theorem of_words (words : Text) {t : Text} (h : words.all isCalm)
    (hstart : ∃ first ∈ words.head?, Text.isBlank first = false) (ht : Firm t) :
    Intact (words ++ t) where
  toFirm := .append (.of_calm h) ht
  starts := by
    obtain ⟨first, hfirst, hink⟩ := hstart
    exact ⟨first, by simp [List.head?_append, Option.mem_def.mp hfirst], hink⟩

theorem trim_eq (h : Intact s) : Text.trim s = s := by
  obtain ⟨first, hfirst, hfi⟩ := h.starts
  obtain ⟨last, hlast, hli⟩ := h.ends
  refine Text.trim_eq_self (fun c hc => ?_) fun c hc => ?_
  · obtain rfl := Option.some.inj (hfirst.symm.trans hc)
    exact hfi
  · obtain rfl := Option.some.inj (hlast.symm.trans hc)
    exact hli

theorem ne_nil (h : Intact s) : s ≠ [] := by
  obtain ⟨first, hfirst, -⟩ := h.starts
  rintro rfl
  cases hfirst

/-- The statement alone is a script of one statement. -/
theorem split_eq (h : Intact s) : split s = [s] := by
  have hpieces : piecesFrom .plain s = [s] := by
    simpa using h.verbatim []
  simp [split, hpieces, h.trim_eq, h.ne_nil]

end Intact

/-! ## Scripts of intact statements -/

/-- The statements that pieces make. -/
def fromPieces (pieces : List Text) : List Text := (pieces.map Text.trim).filter (!·.isEmpty)

theorem split_eq_fromPieces (t : Text) : split t = fromPieces (piecesFrom .plain t) := rfl

theorem fromPieces_append (pieces behind : List Text) :
    fromPieces (pieces ++ behind) = fromPieces pieces ++ fromPieces behind := by
  simp [fromPieces]

/-- A blank in front of a piece is trimmed. -/
theorem fromPieces_prepend_blank {c : Char} (hc : Text.isBlank c) (pieces : List Text) :
    fromPieces (prepend [c] pieces) = fromPieces pieces := by
  have hblank (t : Text) : Text.trim (c :: t) = Text.trim t := by
    rw [Text.trim, Text.trimStart, List.dropWhile_cons_of_pos hc]
    rfl
  cases pieces with
  | nil =>
    simp only [fromPieces, prepend, List.map_cons, List.map_nil, hblank]
    rfl
  | cons piece pieces => simp [fromPieces, hblank]

/-- A statement that is a piece of its own, with its separator, is read as the statement. -/
theorem split_append_separator {s : Text} (hne : s ≠ []) (htrim : Text.trim s = s)
    (hpiece : ∀ rest, piecesFrom .plain (s ++ ';' :: rest) = s :: piecesFrom .plain rest)
    (rest : Text) : split (s ++ separator ++ rest) = s :: split rest := by
  have hbreak : piecesFrom .plain ('\n' :: rest) = prepend [' '] (piecesFrom .plain rest) :=
    piecesFrom_keep _ _ _ rfl
  -- the line break behind the semicolon starts the next piece as a space
  rw [split_eq_fromPieces, List.append_assoc, separator]
  simp only [List.cons_append, List.nil_append]
  rw [hpiece, hbreak]
  have htail := fromPieces_prepend_blank (c := ' ') rfl (piecesFrom .plain rest)
  simp only [fromPieces, List.map_cons, htrim] at htail ⊢
  rw [List.filter_cons_of_pos (by simpa using hne), htail]
  rfl

/-- An intact statement is a piece of its own. -/
theorem Intact.piecesFrom_eq {s : Text} (h : Intact s) (rest : Text) :
    piecesFrom .plain (s ++ ';' :: rest) = s :: piecesFrom .plain rest := by
  rw [h.verbatim, piecesFrom_cut rfl, prepend_cons, List.append_nil]

/-- **Intact statements come back from the script that is made of them.** -/
theorem split_ofStatements {ss : List Text} (h : ∀ s ∈ ss, Intact s) :
    split (ofStatements ss) = ss := by
  induction ss with
  | nil => rfl
  | cons s ss ih =>
    have hs := h s (List.mem_cons_self ..)
    rw [ofStatements, List.flatMap_cons,
      split_append_separator hs.ne_nil hs.trim_eq hs.piecesFrom_eq]
    exact congrArg (s :: ·) (ih fun t ht => h t (List.mem_cons_of_mem _ ht))

end SqlInterchange.Script
