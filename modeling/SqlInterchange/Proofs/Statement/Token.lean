import SqlInterchange.Proofs.Script.Whole
import SqlInterchange.Proofs.Statement.Rendered

/-! # The tokens of a statement

How a database takes a written statement apart: into words, texts in quotes and marks, with blanks
between them.  Inside quotes a doubled quote stands for one; whether a quote closes shows in the
character behind it.  (The statements read here are written from names and values and have no
comments.)

A token is over where a character follows that cannot go on with it, so texts may be put together
before a blank or a mark, and their tokens stand one after the other (`tokens_append`).  A written
name is one token, and so is a written value, whatever characters they have (`tokens_escape`,
`tokens_render`).
-/
namespace SqlInterchange

/-- A token of a statement. -/
inductive Token where
  /-- A word or a number: letters, digits and low lines. -/
  | word (t : Text)
  /-- The text between two quotes of a kind, each doubled quote in it taken once. -/
  | quoted (quote : Char) (body : Text)
  /-- Any other character that is no blank. -/
  | mark (c : Char)
deriving DecidableEq

namespace Token

/-- The characters of words. -/
def isWordChar (c : Char) : Bool := c.isAlphanum || c == '_'

/-- Where the reader is in a statement, with what it has read of a token. -/
inductive Mode where
  /-- Between two tokens. -/
  | between
  /-- In a word. -/
  | word (begun : Text)
  /-- Between quotes. -/
  | quoted (quote : Char) (begun : Text)
  /-- Behind a quote that closes, unless another one follows. -/
  | closed (quote : Char) (begun : Text)
deriving DecidableEq

/-- What a character does between two tokens: the tokens that are over with it, and where the
reader is then. -/
def enter (c : Char) : List Token × Mode :=
  if Text.isBlank c then ([], .between)
  else if Script.isQuote c then ([], .quoted c [])
  else if isWordChar c then ([], .word [c])
  else ([.mark c], .between)

/-- What a character does. -/
def step : Mode → Char → List Token × Mode
  | .between, c => enter c
  | .word begun, c =>
    if isWordChar c then ([], .word (begun ++ [c]))
    else (.word begun :: (enter c).1, (enter c).2)
  | .quoted quote begun, c =>
    if c = quote then ([], .closed quote begun) else ([], .quoted quote (begun ++ [c]))
  | .closed quote begun, c =>
    if c = quote then ([], .quoted quote (begun ++ [quote]))
    else (.quoted quote begun :: (enter c).1, (enter c).2)

/-- The tokens that are over within a text, and where the reader is behind it. -/
def run (mode : Mode) : Text → List Token × Mode
  | [] => ([], mode)
  | c :: cs =>
    match step mode c with
    | (ended, mode) =>
      match run mode cs with
      | (ts, mode) => (ended ++ ts, mode)

/-- The token that is over with the statement. A quote must be closed. -/
def finish : Mode → Option (List Token)
  | .between => some []
  | .word begun => some [.word begun]
  | .quoted _ _ => none
  | .closed quote begun => some [.quoted quote begun]

/-- The tokens of a statement, if all its quotes are closed. -/
def tokens (t : Text) : Option (List Token) :=
  match run .between t with
  | (ts, mode) => (finish mode).map (ts ++ ·)

theorem run_cons (mode : Mode) (c : Char) (cs : Text) : run mode (c :: cs) =
    ((step mode c).1 ++ (run (step mode c).2 cs).1, (run (step mode c).2 cs).2) := rfl

theorem run_append (mode : Mode) (s t : Text) : run mode (s ++ t) =
    ((run mode s).1 ++ (run (run mode s).2 t).1, (run (run mode s).2 t).2) := by
  induction s generalizing mode with
  | nil => rfl
  | cons c s ih => rw [List.cons_append, run_cons, ih, run_cons, List.append_assoc]

theorem tokens_eq_some_iff {t : Text} {ts : List Token} : tokens t = some ts ↔
    ∃ us vs mode, run .between t = (us, mode) ∧ finish mode = some vs ∧ us ++ vs = ts := by
  rw [tokens]
  constructor
  · intro h
    obtain ⟨vs, hvs, rfl⟩ := Option.map_eq_some_iff.mp h
    exact ⟨_, vs, _, rfl, hvs, rfl⟩
  · rintro ⟨us, vs, mode, hrun, hvs, rfl⟩
    rw [hrun]
    exact Option.map_eq_some_iff.mpr ⟨vs, hvs, rfl⟩

@[simp] theorem tokens_nil : tokens [] = some [] := rfl

/-! ## Where a token is over -/

/-- Whether the quote of a mode is one. -/
def Mode.Sound : Mode → Prop
  | .quoted quote _ | .closed quote _ => Script.isQuote quote
  | _ => True

theorem sound_enter (c : Char) : (enter c).2.Sound := by
  rw [enter]
  split
  · trivial
  · split
    · next hquote => exact hquote
    · split <;> trivial

theorem sound_step {mode : Mode} (h : mode.Sound) (c : Char) : (step mode c).2.Sound := by
  cases mode with
  | between => exact sound_enter c
  | word begun =>
    rw [step]
    split
    · trivial
    · exact sound_enter c
  | quoted quote begun =>
    rw [step]
    split <;> exact h
  | closed quote begun =>
    rw [step]
    split
    · exact h
    · exact sound_enter c

/-- The quote that the reader is at is one, throughout a text. -/
theorem sound_run {mode : Mode} (h : mode.Sound) (t : Text) : (run mode t).2.Sound := by
  induction t generalizing mode with
  | nil => exact h
  | cons c t ih => exact ih (sound_step h c)

/-- Whether a text does not go on with what a token before it began. -/
def Boundary (t : Text) : Prop := ∀ c ∈ t.head?, isWordChar c = false ∧ Script.isQuote c = false

theorem boundary_cons {c : Char} (hword : isWordChar c = false) (hquote : Script.isQuote c = false)
    (t : Text) : Boundary (c :: t) := by
  intro d hd
  obtain rfl : c = d := Option.some.inj hd
  exact ⟨hword, hquote⟩

/-- What is over with the statement is over before a boundary. -/
theorem step_boundary {mode : Mode} (hsound : mode.Sound) {ts : List Token}
    (hmode : finish mode = some ts) {c : Char} (hword : isWordChar c = false)
    (hquote : Script.isQuote c = false) : step mode c = (ts ++ (enter c).1, (enter c).2) := by
  cases mode with
  | between =>
    obtain rfl : [] = ts := Option.some.inj hmode
    rfl
  | word begun =>
    obtain rfl : [.word begun] = ts := Option.some.inj hmode
    simp [step, hword]
  | quoted quote begun => cases hmode
  | closed quote begun =>
    obtain rfl : [.quoted quote begun] = ts := Option.some.inj hmode
    have hne : c ≠ quote := by
      rintro rfl
      exact absurd hsound (by simp [Mode.Sound, hquote])
    simp [step, hne]

/-- **Tokens stand one after the other where texts are put together at a boundary.** -/
theorem tokens_append {s rest : Text} {ts us : List Token} (hs : tokens s = some ts)
    (hrest : tokens rest = some us) (h : Boundary rest) : tokens (s ++ rest) = some (ts ++ us) := by
  obtain ⟨ts, last, mode, hrun, hlast, rfl⟩ := tokens_eq_some_iff.mp hs
  cases rest with
  | nil =>
    obtain rfl : [] = us := Option.some.inj hrest
    rw [List.append_nil, hs, List.append_nil]
  | cons c rest =>
    obtain ⟨us, vs, mode', hrun', hvs, rfl⟩ := tokens_eq_some_iff.mp hrest
    obtain ⟨hword, hquote⟩ := h c rfl
    have hsound : mode.Sound := by
      have hbegin : Mode.Sound .between := trivial
      have hall := sound_run hbegin s
      rwa [hrun] at hall
    refine tokens_eq_some_iff.mpr ⟨ts ++ last ++ us, vs, mode', ?_, hvs, by simp⟩
    rw [run_cons, step, Prod.mk.injEq] at hrun'
    rw [run_append, hrun, run_cons, step_boundary hsound hlast hword hquote, ← hrun'.1, ← hrun'.2]
    simp only [List.append_assoc]

/-- A text that ends between two tokens is no part of what follows. -/
theorem tokens_phrase (s : Text) (ts : List Token) {rest : Text} {us : List Token}
    (hs : run .between s = (ts, .between)) (hrest : tokens rest = some us) :
    tokens (s ++ rest) = some (ts ++ us) := by
  obtain ⟨us, vs, mode, hrun, hvs, rfl⟩ := tokens_eq_some_iff.mp hrest
  refine tokens_eq_some_iff.mpr ⟨ts ++ us, vs, mode, ?_, hvs, List.append_assoc ..⟩
  rw [run_append, hs, hrun]

/-! ## Words and quotes -/

theorem isQuote_of_isWordChar {c : Char} (h : isWordChar c) : Script.isQuote c = false := by
  by_contra hquote
  have hc : c = '\x27' ∨ c = '\x22' ∨ c = '\x60' := by
    simpa only [Script.isQuote, Identifier.backtick, Bool.not_eq_false, Bool.or_eq_true, beq_iff_eq,
      or_assoc] using hquote
  rcases hc with rfl | rfl | rfl <;> exact absurd h (by decide)

theorem isBlank_of_isWordChar {c : Char} (h : isWordChar c) : Text.isBlank c = false := by
  rcases Bool.or_eq_true_iff.mp h with halnum | hlow
  · exact Text.isBlank_of_isAlphanum halnum
  · rw [beq_iff_eq.mp hlow]
    rfl

/-- A word is one token. -/
theorem tokens_word {t : Text} (hne : t ≠ []) (h : ∀ c ∈ t, isWordChar c) :
    tokens t = some [.word t] := by
  have hrun : ∀ (begun t : Text), (∀ c ∈ t, isWordChar c) →
      run (.word begun) t = ([], .word (begun ++ t)) := by
    intro begun t
    induction t generalizing begun with
    | nil => simp [run]
    | cons c t ih =>
      intro h
      obtain ⟨hc, ht⟩ := List.forall_mem_cons.mp h
      simp [run_cons, step, hc, ih _ ht]
  cases t with
  | nil => exact absurd rfl hne
  | cons c t =>
    obtain ⟨hc, ht⟩ := List.forall_mem_cons.mp h
    have henter : step .between c = ([], .word [c]) := by
      simp [step, enter, hc, isBlank_of_isWordChar hc, isQuote_of_isWordChar hc]
    rw [tokens, run_cons, henter, hrun _ _ ht]
    rfl

/-- **A quoted text is one token**, with every character that it had before its quotes were
doubled. -/
theorem tokens_quoted {quote : Char} (h : Script.isQuote quote) (body : Text) :
    tokens (quote :: Identifier.double quote body ++ [quote]) = some [.quoted quote body] := by
  have hrun : ∀ begun body : Text,
      run (.quoted quote begun) (Identifier.double quote body ++ [quote]) =
        ([], .closed quote (begun ++ body)) := by
    intro begun body
    induction body generalizing begun with
    | nil => simp [run, step]
    | cons c body ih =>
      by_cases hc : c = quote
      · -- the first half closes the quotes for a moment, the second one is taken
        rw [hc, Identifier.double_cons_self]
        simp [run_cons, step, ih]
      · rw [Identifier.double_cons_of_ne hc]
        simp [run_cons, step, hc, ih]
  have henter : step .between quote = ([], .quoted quote []) := by
    simp [step, enter, h, Script.isBlank_of_isQuote h]
  rw [List.cons_append, tokens, run_cons, henter, hrun]
  rfl

/-! ## Names and values -/

/-- The token of a written name. -/
def ofName (name : Text) : Token :=
  if Identifier.isBare name then .word name else .quoted Identifier.backtick name

/-- The name that a token gives where a name must stand. -/
def name? : Token → Option Text
  | .word t => some t
  | .quoted quote body => if quote = Identifier.backtick then some body else none
  | .mark _ => none

@[simp] theorem name?_ofName (name : Text) : (ofName name).name? = some name := by
  rw [ofName]
  split <;> simp [name?]

theorem tokens_escape (name : Text) : tokens (Identifier.escape name) = some [ofName name] := by
  by_cases h : Identifier.isBare name
  · have hne : name ≠ [] := by
      rintro rfl
      cases h
    rw [Identifier.escape, ofName, if_pos h, if_pos h]
    exact tokens_word hne fun c hc => by
      simp [isWordChar, Identifier.isAlphanum_of_isBare h c hc]
  · rw [Identifier.escape, ofName, if_neg h, if_neg h]
    exact tokens_quoted Identifier.isQuote_backtick name

/-- What a cell of a table holds: a text, or nothing. -/
abbrev Cell := Option Text

/-- The token of a written cell. -/
def ofCell : Cell → Token
  | none => .word "NULL".toList
  | some t => .quoted Literal.apostrophe t

/-- The cell that a token gives where a value must stand. -/
def cell? : Token → Option Cell
  | .word t => if t = "NULL".toList then some none else none
  | .quoted quote body => if quote = Literal.apostrophe then some (some body) else none
  | .mark _ => none

@[simp] theorem cell?_ofCell (cell : Cell) : (ofCell cell).cell? = some cell := by
  cases cell <;> simp [ofCell, cell?]

theorem tokens_render (v : Value) :
    tokens (Literal.render v) = some [ofCell (Literal.content? v)] := by
  rw [Literal.render, Literal.sanitize]
  cases Literal.content? v with
  | none => rfl
  | some t => exact tokens_quoted Literal.isQuote_apostrophe t

/-! ## Lists -/

/-- The tokens of a list: those of its parts, with commas between them. -/
def listed (parts : List (List Token)) : List Token := [.mark ','].intercalate parts

@[simp] theorem listed_singleton (part : List Token) : listed [part] = part := by simp [listed]

theorem listed_cons_cons (part next : List Token) (parts : List (List Token)) :
    listed (part :: next :: parts) = part ++ .mark ',' :: listed (next :: parts) := by
  simp [listed, List.intercalate_cons_cons]

/-- The tokens of texts with separators between them, where a separator is a boundary. -/
theorem tokens_joinWith {α : Type} {f : α → Text} {g : α → List Token} (separator : String)
    (signs : List Token) (hrun : run .between separator.toList = (signs, .between))
    (hboundary : ∀ rest, Boundary (separator.toList ++ rest))
    (h : ∀ a, tokens (f a) = some (g a)) (as : List α) :
    tokens (Text.joinWith separator (as.map f)) = some (signs.intercalate (as.map g)) := by
  rw [Text.joinWith]
  induction as with
  | nil => rfl
  | cons a as ih =>
    cases as with
    | nil => simpa using h a
    | cons b as =>
      have hrest := tokens_phrase separator.toList signs hrun ih
      have hall := tokens_append (h a) hrest (hboundary _)
      simp only [List.map_cons] at hall ⊢
      rw [List.intercalate_cons_cons, List.intercalate_cons_cons, List.append_assoc,
        List.append_assoc]
      exact hall

theorem tokens_list {α : Type} {f : α → Text} {g : α → List Token}
    (h : ∀ a, tokens (f a) = some (g a)) (as : List α) :
    tokens (Text.joinWith ", " (as.map f)) = some (listed (as.map g)) :=
  tokens_joinWith ", " [.mark ','] (by decide) (fun _ => boundary_cons (by decide) (by decide) _) h
    as

end Token
end SqlInterchange
