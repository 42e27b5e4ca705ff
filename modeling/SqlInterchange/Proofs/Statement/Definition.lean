import SqlInterchange.Proofs.Script.Wrapper
import SqlInterchange.Proofs.Statement.Name
import SqlInterchange.Proofs.Statement.Written
import SqlInterchange.Proofs.Text.Trim
import SqlInterchange.Sql.TableDefinition

/-! # Table definitions come back

A definition is read from the left and nothing is taken back: the words that open it, the name, the
clause.  The name ends in the right place because of what stands behind it.  A quote that closes it
is not doubled, since a blank or the parenthesis of the clause follows, and the quotes in it are all
doubled; a bare name has neither blanks nor parentheses.  For the same reason a name is not taken
for the words that keep an existing table, not even if it is the first of them: the next word would
have to stand where the clause begins.

So the name and the clause come back from a definition, however it is spaced and capitalised and in
whichever delimiters the name stands (`definition_comes_back`).
-/
namespace SqlInterchange

/-! ## Names in delimiters -/

namespace Identifier

/-- Blanks and delimiters of other kinds apart, any text may stand in brackets. -/
theorem unescape_bracketed (name : Text) : unescape ('[' :: name ++ [']']) = name := by
  have htrim : Text.trim ('[' :: name ++ [']']) = '[' :: (name ++ [']']) := by
    refine Text.trim_eq_self (fun c hc => ?_) fun c hc => ?_
    · obtain rfl : '[' = c := Option.some.inj hc
      rfl
    · rw [List.getLast?_concat] at hc
      obtain rfl : ']' = c := Option.some.inj hc
      rfl
  have hcloses : closing? '[' = some ']' := by decide
  rw [unescape, htrim]
  simp only [hcloses, List.getLast?_concat, List.dropLast_concat, if_pos]
  rw [inside, if_pos rfl]

end Identifier

namespace TableDefinition

open Script (IsWord Trails IsCapital)

/-! ## How a definition is written -/

/-- `IsWritten name t`: the text is the name as statements write it, or the name in quotation marks
with its own doubled, or in brackets if none of these closes before its end. -/
inductive IsWritten (name : Text) : Text → Prop
  | escaped : IsWritten name (Identifier.escape name)
  | quoted : IsWritten name ('\x22' :: Identifier.double '\x22' name ++ ['\x22'])
  | bracketed (h : ']' ∉ name) : IsWritten name ('[' :: name ++ [']'])

/-- `Opening t`: the text is `CREATE TABLE`, perhaps with `IF NOT EXISTS` behind it, in any letter
case and with any blanks before each word and behind the last one. -/
inductive Opening : Text → Prop
  | mk {before w t behind : Text} {words : List String} (hbefore : before.all Text.isBlank)
    (hw : IsWord "CREATE" w) (ht : Trails words t)
    (hwords : words ∈ [["TABLE"], ["TABLE", "IF", "NOT", "EXISTS"]])
    (hbehind : behind.all Text.isBlank) (hne : behind ≠ []) : Opening (before ++ (w ++ t) ++ behind)

/-- The characters that a name in delimiters begins with. -/
def delimiters : List Char := ['\x22', Identifier.backtick, '[']

theorem IsWritten.bare_or_delimited {name written : Text} (h : IsWritten name written) :
    (Identifier.isBare name ∧ written = name) ∨
    ∃ delimiter ∈ delimiters, ∃ t, written = delimiter :: t := by
  cases h with
  | escaped =>
    by_cases hbare : Identifier.isBare name
    · exact .inl ⟨hbare, if_pos hbare⟩
    · exact .inr ⟨Identifier.backtick, by decide, _, if_neg hbare⟩
  | quoted => exact .inr ⟨'\x22', by decide, _, rfl⟩
  | bracketed _ => exact .inr ⟨'[', by decide, _, rfl⟩

/-! ## The words -/

/-- What follows some words, each with blanks behind it. -/
def stripWords? : List String → Text → Option Text
  | [], t => some t
  | word :: words, t => (stripWord? word t).bind (stripWords? words)

theorem stripWords?_append (words more : List String) (t : Text) :
    stripWords? (words ++ more) t = (stripWords? words t).bind (stripWords? more) := by
  induction words generalizing t with
  | nil => rfl
  | cons word words ih =>
    rw [List.cons_append, stripWords?, stripWords?, Option.bind_assoc]
    exact congrArg _ (funext ih)

theorem stripIfNotExists?_eq (t : Text) :
    stripIfNotExists? t = stripWords? ["IF", "NOT", "EXISTS"] t := by
  simp only [stripIfNotExists?, stripWords?, Option.bind_assoc, Option.bind_fun_some]

theorem parse?_eq (sql : Text) : parse? sql =
    ((stripWords? ["CREATE", "TABLE"] (Text.trimStart sql)).bind target?).map fun (token, clause) =>
      (Identifier.unescape token, Text.trim clause) := by
  simp only [parse?, stripWords?, Option.bind_fun_some]

theorem stripBlanks?_append {gap rest : Text} (hgap : gap.all Text.isBlank) (hne : gap ≠ [])
    (hrest : ∀ c ∈ rest.head?, Text.isBlank c = false) :
    Text.stripBlanks? (gap ++ rest) = some rest :=
  Text.stripBlanks?_eq_some_iff.mpr ⟨⟨gap, hgap, hne, rfl⟩, hrest⟩

variable {word : String} {words : List String} {w t gap rest : Text}

theorem stripWord?_append (hw : IsWord word w) (hgap : gap.all Text.isBlank) (hne : gap ≠ [])
    (hrest : ∀ c ∈ rest.head?, Text.isBlank c = false) :
    stripWord? word (w ++ (gap ++ rest)) = some rest := by
  rw [stripWord?, Script.stripWord?_append hw, Option.bind_some, stripBlanks?_append hgap hne hrest]

/-- Words with blanks between them and behind them are taken, one after the other. -/
theorem stripWords?_trails (ht : Trails words t) (hwords : ∀ word ∈ words, IsCapital word)
    (hw : IsWord word w) (hgap : gap.all Text.isBlank) (hne : gap ≠ [])
    (hrest : ∀ c ∈ rest.head?, Text.isBlank c = false) :
    stripWords? (word :: words) (w ++ t ++ (gap ++ rest)) = some rest := by
  induction ht generalizing word w with
  | nil =>
    rw [List.append_nil, stripWords?, stripWord?_append hw hgap hne hrest]
    rfl
  | @cons next words between w' t hbetween hblank hw' ht ih =>
    obtain ⟨hnext, hwords⟩ := List.forall_mem_cons.mp hwords
    have hhead : ∀ c ∈ (w' ++ t ++ (gap ++ rest)).head?, Text.isBlank c = false := by
      rw [List.append_assoc]
      exact hw'.head? hnext _
    have hfirst := stripWord?_append hw hblank hbetween hhead
    rw [stripWords?, show w ++ (between ++ (w' ++ t)) ++ (gap ++ rest) =
      w ++ (between ++ (w' ++ t ++ (gap ++ rest))) by simp only [List.append_assoc], hfirst]
    exact ih hwords hw'

/-! ## The name -/

theorem closeQuoted?_cons_of_ne {quote c : Char} (h : c ≠ quote) (t : Text) :
    closeQuoted? quote (c :: t) = (closeQuoted? quote t).map fun (name, rest) => (c :: name, rest) := by
  rw [closeQuoted?.eq_def]
  exact if_pos h

/-- **A quoted name is read up to the quote that closes it.** -/
theorem closeQuoted?_double {quote : Char} {behind : Text} (h : ∀ c ∈ behind.head?, c ≠ quote)
    (name : Text) : closeQuoted? quote (Identifier.double quote name ++ quote :: behind) =
      some (Identifier.double quote name ++ [quote], behind) := by
  induction name with
  | nil =>
    cases behind with
    | nil => simp [closeQuoted?]
    | cons d ds => simp [closeQuoted?, h d rfl]
  | cons c name ih =>
    by_cases hc : c = quote
    · rw [hc, Identifier.double_cons_self]
      simp [closeQuoted?, ih]
    · rw [Identifier.double_cons_of_ne hc, List.cons_append, closeQuoted?_cons_of_ne hc, ih]
      rfl

theorem closeBracketed?_append {name : Text} (h : ']' ∉ name) (behind : Text) :
    closeBracketed? (name ++ ']' :: behind) = some (name ++ [']'], behind) := by
  induction name with
  | nil => rfl
  | cons c name ih =>
    rw [List.mem_cons, not_or] at h
    rw [List.cons_append, closeBracketed?, if_neg (Ne.symm h.1), ih h.2]
    rfl

theorem name?_of_delimited {t token behind : Text} (h : delimited? t = some (token, behind)) :
    name? t = some (token, behind) := by
  rw [name?, h]
  rfl

/-- A name in quotes is read as it is written, unless its last quote is doubled. -/
theorem name?_quoted {quote : Char} (hquote : quote = '\x22' ∨ quote = Identifier.backtick)
    {behind : Text} (h : ∀ c ∈ behind.head?, c ≠ quote) (name : Text) :
    name? (quote :: Identifier.double quote name ++ [quote] ++ behind) =
      some (quote :: Identifier.double quote name ++ [quote], behind) := by
  have hclose := closeQuoted?_double h name
  refine name?_of_delimited ?_
  simp [delimited?, hquote, hclose]

theorem name?_bracketed {name : Text} (h : ']' ∉ name) (behind : Text) :
    name? ('[' :: name ++ [']'] ++ behind) = some ('[' :: name ++ [']'], behind) := by
  have hclose := closeBracketed?_append h behind
  refine name?_of_delimited ?_
  simp [delimited?, hclose, Identifier.backtick]

theorem isNameChar_of_isAlphanum {c : Char} (h : c.isAlphanum) : isNameChar c := by
  have hparenthesis : c ≠ '(' := by
    rintro rfl
    exact absurd h (by decide)
  simp [isNameChar, Text.isBlank_of_isAlphanum h, hparenthesis]

theorem delimited?_of_closing? {c : Char} (h : Identifier.closing? c = none) (t : Text) :
    delimited? (c :: t) = none := by
  rw [Identifier.closing?] at h
  split at h
  · cases h
  · next hquote =>
    split at h
    · cases h
    · next hbracket => simp [delimited?, or_comm.not.mp hquote, hbracket]

theorem bare?_append {name behind : Text} (hname : ∀ c ∈ name, isNameChar c)
    (h : ∀ c ∈ behind.head?, isNameChar c = false) :
    bare? (name ++ behind) = if name.isEmpty then none else some (name, behind) := by
  have hstop : behind.takeWhile isNameChar = [] ∧ behind.dropWhile isNameChar = behind := by
    cases behind with
    | nil => exact ⟨rfl, rfl⟩
    | cons c behind => simp [h c rfl]
  rw [bare?, List.takeWhile_append_of_pos hname, List.dropWhile_append_of_pos hname, hstop.1,
    hstop.2, List.append_nil]

/-- A bare name is read up to what cannot stand in it. -/
theorem name?_bare {name behind : Text} (hname : Identifier.isBare name)
    (h : ∀ c ∈ behind.head?, isNameChar c = false) :
    name? (name ++ behind) = some (name, behind) := by
  have hchars : ∀ c ∈ name, isNameChar c := fun c hc =>
    isNameChar_of_isAlphanum (Identifier.isAlphanum_of_isBare hname c hc)
  cases name with
  | nil => cases hname
  | cons c name =>
    have hplain : delimited? (c :: name ++ behind) = none :=
      delimited?_of_closing?
        (Identifier.closing?_of_isAlpha (Bool.and_eq_true_iff.mp hname).1) _
    rw [name?, hplain, Option.none_or, bare?_append hchars h]
    rfl

/-- A name that a statement has written is read as it is written, unless what follows goes on with
it. -/
theorem name?_escaped {name behind : Text}
    (h : ∀ c ∈ behind.head?, if Identifier.isBare name then isNameChar c = false
      else c ≠ Identifier.backtick) :
    name? (Identifier.escape name ++ behind) = some (Identifier.escape name, behind) := by
  by_cases hbare : Identifier.isBare name
  · simp only [if_pos hbare] at h
    rw [Identifier.escape, if_pos hbare]
    exact name?_bare hbare h
  · simp only [if_neg hbare] at h
    rw [Identifier.escape, if_neg hbare]
    exact name?_quoted (.inr rfl) h name

/-- **A written name is read as it is written**, where a blank or a parenthesis follows. -/
theorem name?_written {name written behind : Text} (hwritten : IsWritten name written)
    (h : ∀ c ∈ behind.head?, isNameChar c = false) :
    name? (written ++ behind) = some (written, behind) := by
  have hquote {quote : Char} (hname : isNameChar quote) : ∀ c ∈ behind.head?, c ≠ quote := by
    rintro c hc rfl
    exact Bool.false_ne_true ((h c hc).symm.trans hname)
  cases hwritten with
  | escaped =>
    refine name?_escaped fun c hc => ?_
    split
    · exact h c hc
    · exact hquote (by decide) c hc
  | quoted => exact name?_quoted (.inl rfl) (hquote (by decide)) name
  | bracketed hclose => exact name?_bracketed hclose behind

theorem unescape_written {name written : Text} (h : IsWritten name written) :
    Identifier.unescape written = name := by
  cases h with
  | escaped => exact Identifier.unescape_escape name
  | quoted => exact Identifier.unescape_quoted (by decide) name
  | bracketed _ => exact Identifier.unescape_bracketed name

/-! ## The words are not the name -/

theorem stripWords?_of_head {word : String} {letter c : Char} {letters t : Text}
    (hword : word.toList = letter :: letters) (ht : c ∈ t.head?)
    (hfold : Text.foldsTo letter c = false) (words : List String) :
    stripWords? (word :: words) t = none := by
  rw [stripWords?, stripWord?, hword, Script.stripWord?_eq_none letters ht hfold]
  rfl

theorem foldsTo_of_not_isNameChar {letter c : Char} (hletter : letter.isUpper)
    (hc : isNameChar c = false) : Text.foldsTo letter c = false := by
  by_contra hfold
  have hfold : Text.foldsTo letter c := eq_true_of_ne_false hfold
  have hblank : Text.isBlank c = false := (Script.calm_of_foldsTo hletter hfold).2
  have hparenthesis : c = '(' := by simpa [isNameChar, hblank] using hc
  have hcapital : Char.toUpper '(' = letter := by simpa [Text.foldsTo, hparenthesis] using hfold
  exact absurd (hcapital ▸ hletter) (by decide)

/-- What is between a name and the end of its definition. -/
structure IsBehind (gap clause : Text) : Prop where
  gap : gap.all Text.isBlank
  clause : '(' ∈ clause.head?

namespace IsBehind

variable {gap clause : Text} (h : IsBehind gap clause)
include h

theorem notBlank : ∀ c ∈ clause.head?, Text.isBlank c = false := by
  intro c hc
  obtain rfl := Option.some.inj (h.clause.symm.trans hc)
  rfl

theorem exists_head : ∃ c ∈ (gap ++ clause).head?, isNameChar c = false := by
  have hgap := h.gap
  cases gap with
  | nil => exact ⟨'(', h.clause, rfl⟩
  | cons c gap => exact ⟨c, rfl, by simp [isNameChar, (Bool.and_eq_true_iff.mp hgap).1]⟩

theorem not_isNameChar : ∀ c ∈ (gap ++ clause).head?, isNameChar c = false := by
  obtain ⟨d, hd, hname⟩ := h.exists_head
  intro c hc
  obtain rfl := Option.some.inj (Option.mem_def.mp hd ▸ Option.mem_def.mp hc)
  exact hname

/-- No word begins behind a name. -/
theorem stripWord?_eq_none {letter : Char} (hletter : letter.isUpper) (letters : Text) :
    Text.stripWord? (letter :: letters) (gap ++ clause) = none := by
  obtain ⟨c, hc, hname⟩ := h.exists_head
  exact Script.stripWord?_eq_none letters hc (foldsTo_of_not_isNameChar hletter hname)

/-- And none begins behind the blanks there. -/
theorem stripWords?_eq_none (words : List String) :
    (Text.stripBlanks? (gap ++ clause)).bind (stripWords? ("NOT" :: words)) = none := by
  by_cases hgap : gap = []
  · obtain ⟨rest, hrest⟩ := List.head?_eq_some_iff.mp h.clause
    rw [hgap, hrest]
    rfl
  · rw [stripBlanks?_append h.gap hgap h.notBlank]
    exact stripWords?_of_head rfl h.clause (by decide) words

/-- A bare name is not the first of the words that keep an existing table, even if it is `IF`. -/
theorem stripIfNotExists?_bare {name : Text} (hname : Identifier.isBare name) :
    stripIfNotExists? (name ++ (gap ++ clause)) = none := by
  have hchars := Identifier.isAlphanum_of_isBare hname
  rw [stripIfNotExists?_eq, stripWords?, stripWord?]
  match name with
  | [c] =>
    -- the word would go on behind the name
    have hword : Text.stripWord? "IF".toList (c :: (gap ++ clause)) = none := by
      show (if Text.foldsTo 'I' c then Text.stripWord? ['F'] (gap ++ clause) else none) = none
      rw [h.stripWord?_eq_none (by decide), ite_self]
    rw [List.singleton_append, hword]
    rfl
  | [c, d] =>
    -- the next word would be behind the name
    show ((if Text.foldsTo 'I' c then if Text.foldsTo 'F' d then some (gap ++ clause) else none
      else none).bind Text.stripBlanks?).bind _ = none
    split
    · split
      · exact h.stripWords?_eq_none ["EXISTS"]
      · rfl
    · rfl
  | c :: d :: e :: name =>
    -- no blank follows the word
    have he : Text.isBlank e = false := Text.isBlank_of_isAlphanum (hchars e (by simp))
    show ((if Text.foldsTo 'I' c then if Text.foldsTo 'F' d then
      some (e :: (name ++ (gap ++ clause))) else none else none).bind Text.stripBlanks?).bind _ = none
    split
    · split
      · simp [Text.stripBlanks?, he]
      · rfl
    · rfl

/-- No written name begins with the words that keep an existing table. -/
theorem stripIfNotExists?_written {name written : Text} (hwritten : IsWritten name written) :
    stripIfNotExists? (written ++ (gap ++ clause)) = none := by
  rcases hwritten.bare_or_delimited with ⟨hbare, rfl⟩ | ⟨delimiter, hdelimiter, t, rfl⟩
  · exact h.stripIfNotExists?_bare hbare
  · have hfold : delimiters.all (!Text.foldsTo 'I' ·) := by decide
    have hfirst : Text.foldsTo 'I' delimiter = false := by
      simpa using List.all_eq_true.mp hfold delimiter hdelimiter
    rw [stripIfNotExists?_eq]
    exact stripWords?_of_head rfl rfl hfirst _

end IsBehind

/-! ## Definitions -/

/-- Words and a name that stand before the clause are read. -/
theorem target?_written {name written gap clause : Text} (hwritten : IsWritten name written)
    (h : IsBehind gap clause) {t : Text}
    (ht : t = written ++ (gap ++ clause) ∨
      stripIfNotExists? t = some (written ++ (gap ++ clause))) :
    target? t = some (written, gap ++ clause) := by
  have hname := name?_written hwritten h.not_isNameChar
  rcases ht with rfl | ht
  · rw [target?, h.stripIfNotExists?_written hwritten, Option.bind_none, Option.none_or, hname]
  · rw [target?, ht, Option.bind_some, hname, Option.some_or]

theorem head?_written {name written : Text} (h : IsWritten name written) (t : Text) :
    ∀ c ∈ (written ++ t).head?, Text.isBlank c = false := by
  intro c hc
  rcases h.bare_or_delimited with ⟨hbare, rfl⟩ | ⟨delimiter, hdelimiter, rest, rfl⟩
  · cases written with
    | nil => cases hbare
    | cons d written =>
      obtain rfl := Option.some.inj hc
      exact Text.isBlank_of_isAlphanum
        (Identifier.isAlphanum_of_isBare hbare d List.mem_cons_self)
  · obtain rfl := Option.some.inj hc
    have hblank : delimiters.all (!Text.isBlank ·) := by decide
    simpa using List.all_eq_true.mp hblank delimiter hdelimiter

/-- The words of the statement that makes a table are taken. -/
theorem stripWords?_render (table clause : Text) :
    stripWords? ["CREATE", "TABLE"] (Text.trimStart (render table clause)) =
      some (Identifier.escape table ++ clause) := by
  have hcreate : IsWord "CREATE" "CREATE".toList := .of_map rfl
  have htable : Trails ["TABLE"] ([' '] ++ ("TABLE".toList ++ [])) :=
    .cons (List.cons_ne_nil _ _) rfl (.of_map rfl) .nil
  have hhead : ∀ c ∈ (Identifier.escape table ++ clause).head?, Text.isBlank c = false :=
    head?_written .escaped clause
  have hcapital : ∀ word ∈ ["TABLE"], IsCapital word := List.forall_mem_singleton.mpr (by decide)
  have hblank : [' '].all Text.isBlank := rfl
  have hwords := stripWords?_trails htable hcapital hcreate hblank (List.cons_ne_nil _ _) hhead
  have hrender : render table clause = "CREATE".toList ++ ([' '] ++ ("TABLE".toList ++ [])) ++
      ([' '] ++ (Identifier.escape table ++ clause)) := List.append_assoc ..
  have hstart : ∀ c ∈ (render table clause).head?, Text.isBlank c = false := by
    rw [hrender]
    exact hcreate.head? (by decide) _
  rw [Text.trimStart_eq_self hstart, hrender, hwords]

/-- The words that open a definition are taken, up to the name. -/
theorem stripWords?_opening {opening rest : Text} (h : Opening opening)
    (hrest : ∀ c ∈ rest.head?, Text.isBlank c = false) :
    ∃ t, stripWords? ["CREATE", "TABLE"] (Text.trimStart (opening ++ rest)) = some t ∧
      (t = rest ∨ stripIfNotExists? t = some rest) := by
  obtain @⟨before, w, words, behind, others, hbefore, hw, ht, hwords, hbehind, hne⟩ := h
  have hcapital : ∀ word ∈ others, IsCapital word := by
    intro word hword
    revert word
    rcases List.mem_pair.mp hwords with rfl | rfl <;> decide
  have hall : stripWords? ("CREATE" :: others)
      (Text.trimStart (before ++ (w ++ words) ++ behind ++ rest)) = some rest := by
    have hhead := hw.head? (by decide) (words ++ (behind ++ rest))
    rw [show before ++ (w ++ words) ++ behind ++ rest = before ++ (w ++ (words ++ (behind ++ rest)))
      by simp only [List.append_assoc], Text.trimStart_append hbefore, Text.trimStart_eq_self hhead,
      ← List.append_assoc w]
    exact stripWords?_trails ht hcapital hw hbehind hne hrest
  rcases List.mem_pair.mp hwords with rfl | rfl
  · exact ⟨rest, hall, .inl rfl⟩
  · -- what keeps an existing table is taken behind the other words
    have hparts := (stripWords?_append ["CREATE", "TABLE"] ["IF", "NOT", "EXISTS"] _).symm.trans hall
    obtain ⟨t, ht, hkeeps⟩ := Option.bind_eq_some_iff.mp hparts
    exact ⟨t, ht, .inr ((stripIfNotExists?_eq t).trans hkeeps)⟩

/-- **Main.**  The name and the clause come back from every definition, and so from the statement
that is written of the two. -/
theorem definition_comes_back {name clause : Text} (hclause : clause.head? = some '(') :
    (∀ opening written gap, Opening opening → IsWritten name written → gap.all Text.isBlank →
      parse? (opening ++ written ++ gap ++ clause) = some (name, Text.trim clause)) ∧
    parse? (render name clause) = some (name, Text.trim clause) := by
  have hread : ∀ opening written gap, Opening opening → IsWritten name written →
      gap.all Text.isBlank →
      parse? (opening ++ written ++ gap ++ clause) = some (name, Text.trim clause) := by
    intro opening written gap hopening hwritten hgap
    have hbehind : IsBehind gap clause := ⟨hgap, hclause⟩
    obtain ⟨t, hwords, hkeeps⟩ :=
      stripWords?_opening hopening (head?_written hwritten (gap ++ clause))
    have htarget := target?_written hwritten hbehind hkeeps
    have htrim : Text.trim (gap ++ clause) = Text.trim clause :=
      congrArg Text.trimEnd (Text.trimStart_append hgap clause)
    rw [parse?_eq, List.append_assoc, List.append_assoc, hwords, Option.bind_some, htarget]
    simp only [Option.map_some, unescape_written hwritten, htrim]
  refine ⟨hread, ?_⟩
  have hopening : Opening ([] ++ ("CREATE".toList ++ ([' '] ++ ("TABLE".toList ++ []))) ++ [' ']) :=
    .mk rfl (.of_map rfl) (.cons (List.cons_ne_nil _ _) rfl (.of_map rfl) .nil)
      List.mem_cons_self rfl (List.cons_ne_nil _ _)
  have hrendered := hread _ _ [] hopening .escaped rfl
  rwa [List.append_nil] at hrendered

/-- A table of the name `IF`, made unless there is one. -/
theorem definition_comes_back_if :
    parse? "\ncreate Table  if not\tExists [IF] (a\x22]\n".toList =
        some ("IF".toList, "(a\x22]".toList) ∧
      parse? (render "IF".toList "(a\x22]\n".toList) = some ("IF".toList, "(a\x22]".toList) := by
  have hblank (c : Char) : [c] ≠ [] := List.cons_ne_nil c []
  have hkeeps : Trails ["TABLE", "IF", "NOT", "EXISTS"]
      ([' '] ++ ("Table".toList ++ ([' ', ' '] ++ ("if".toList ++ ([' '] ++ ("not".toList ++
        (['\t'] ++ ("Exists".toList ++ [])))))))) :=
    .cons (hblank ' ') rfl (.of_map rfl) (.cons (List.cons_ne_nil _ _) rfl (.of_map rfl)
      (.cons (hblank ' ') rfl (.of_map rfl) (.cons (hblank '\t') rfl (.of_map rfl) .nil)))
  have hcreate : IsWord "CREATE" "create".toList := .of_map rfl
  have hopening : Opening (['\n'] ++ ("create".toList ++ _) ++ [' ']) :=
    .mk rfl hcreate hkeeps (by decide) rfl (hblank ' ')
  have hname : IsWritten "IF".toList ('[' :: "IF".toList ++ [']']) := .bracketed (by decide)
  have hclause : "(a\x22]\n".toList.head? = some '(' := rfl
  exact ⟨(definition_comes_back hclause).1 _ _ [' '] hopening hname rfl,
    (definition_comes_back hclause).2⟩

end TableDefinition
end SqlInterchange
