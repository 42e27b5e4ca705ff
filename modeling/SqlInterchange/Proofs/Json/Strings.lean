import Mathlib.Data.List.Basic
import SqlInterchange.Json.Reader
import SqlInterchange.Json.Writer

/-! # Strings read back

A text written as a string is read as the text (`string_write`).  Every character is read from
what is written for it, whatever goes on behind: one character, a short escape, an escape with
the number of its one code unit, or two of them for a character outside the basic plane.  An
escape with a number counts only if the text goes on behind it; in a string it always does, at
the latest with the closing quote.
-/
namespace SqlInterchange.Json

/-! ## Four digits of base sixteen -/

theorem hexValue?_hexDigit {d : Nat} (h : d < 16) : hexValue? (Text.hexDigit d) = some d := by
  have hall : ∀ d < 16, hexValue? (Text.hexDigit d) = some d := by decide
  exact hall d h

theorem hex_four (n : Nat) : Text.hex 4 n =
    [Text.hexDigit (n / 16 / 16 / 16 % 16), Text.hexDigit (n / 16 / 16 % 16),
      Text.hexDigit (n / 16 % 16), Text.hexDigit (n % 16)] := rfl

theorem hexValue4?_hex {n : Nat} (h : n < 0x10000) :
    hexValue4? (Text.hexDigit (n / 16 / 16 / 16 % 16)) (Text.hexDigit (n / 16 / 16 % 16))
      (Text.hexDigit (n / 16 % 16)) (Text.hexDigit (n % 16)) = some n := by
  have hdigit (m : Nat) := hexValue?_hexDigit (Nat.mod_lt m (by decide : 0 < 16))
  simp only [hexValue4?, hdigit, Option.bind_eq_bind, Option.bind_some, pure, Option.some.injEq]
  omega

/-! ## One character -/

variable {opened rest : Text}

/-- An escape with the number of a character is read as the character. -/
theorem unicodeEscape_hex {n : Nat} (hn : n < 0x10000) (hhigh : isHighSurrogate n = false)
    (hrest : rest ≠ []) : unicodeEscape (Text.hex 4 n ++ rest) = .ok (charOfUnit n, rest) := by
  obtain ⟨c, rest, rfl⟩ := List.exists_cons_of_ne_nil hrest
  simp only [hex_four, List.cons_append, List.nil_append, unicodeEscape, hexValue4?_hex hn, hhigh]
  rfl

theorem lowSurrogate?_unitEscape {low : Nat} (hlow : isLowSurrogate low) (hrest : rest ≠ []) :
    lowSurrogate? (unitEscape low ++ rest) = .ok (some (low, rest)) := by
  obtain ⟨c, rest, rfl⟩ := List.exists_cons_of_ne_nil hrest
  have hlow' : low < 0x10000 := by
    simp only [isLowSurrogate, Bool.and_eq_true, decide_eq_true_eq] at hlow
    omega
  simp [unitEscape, hex_four, lowSurrogate?, hexValue4?_hex hlow', hlow]

/-- Two escapes with the halves of a character are read as the character. -/
theorem unicodeEscape_pair {high low : Nat} (hhigh : isHighSurrogate high)
    (hlow : isLowSurrogate low) (hrest : rest ≠ []) :
    unicodeEscape (Text.hex 4 high ++ (unitEscape low ++ rest)) =
      .ok (joinSurrogates high low, rest) := by
  have hhigh' : high < 0x10000 := by
    simp only [isHighSurrogate, Bool.and_eq_true, decide_eq_true_eq] at hhigh
    omega
  have hsecond := lowSurrogate?_unitEscape hlow hrest
  -- the second escape is text behind the first one, so the first one counts
  obtain ⟨c, after, hafter⟩ :=
    List.exists_cons_of_ne_nil (List.append_ne_nil_of_right_ne_nil (unitEscape low) hrest)
  rw [hafter] at hsecond ⊢
  simp only [hex_four, List.cons_append, List.nil_append, unicodeEscape, hexValue4?_hex hhigh',
    hhigh, if_true, hsecond]
  rfl

theorem stringChar_escape {t : Text} :
    stringChar opened ('\\' :: 'u' :: t) =
      (unicodeEscape t).map fun (ch, after) => (some ch, after) := rfl

theorem toNat_range (c : Char) :
    c.toNat < 0xD800 ∨ 0xDFFF < c.toNat ∧ c.toNat < 0x110000 := c.valid

/-- No character is half a character. -/
theorem isSurrogate_toNat (c : Char) :
    isHighSurrogate c.toNat = false ∧ isLowSurrogate c.toNat = false := by
  have hrange := toNat_range c
  simp only [isHighSurrogate, isLowSurrogate, Bool.and_eq_false_iff, decide_eq_false_iff_not]
  omega

theorem charOfUnit_toNat (c : Char) : charOfUnit c.toNat = c := by
  obtain ⟨hhigh, hlow⟩ := isSurrogate_toNat c
  simp [charOfUnit, hhigh, hlow, Char.ofNat_toNat]

theorem joinSurrogates_halves {c : Char} (h : 0x10000 ≤ c.toNat) :
    joinSurrogates (0xD800 + (c.toNat - 0x10000) / 0x400) (0xDC00 + (c.toNat - 0x10000) % 0x400) =
      c := by
  have hsum : 0x10000 + (0xD800 + (c.toNat - 0x10000) / 0x400 - 0xD800) * 0x400 +
      (0xDC00 + (c.toNat - 0x10000) % 0x400 - 0xDC00) = c.toNat := by
    omega
  rw [joinSurrogates, hsum, Char.ofNat_toNat]

/-- A character is read from what is written for it. -/
theorem stringChar_writeChar (c : Char) (hrest : rest ≠ []) :
    stringChar opened (writeChar c ++ rest) = .ok (some c, rest) := by
  unfold writeChar
  split
  · next h => rw [h]; rfl
  split
  · next h => rw [h]; rfl
  split
  · next h => rw [h]; rfl
  split
  · next h => rw [h]; rfl
  split
  · next h => rw [h]; rfl
  split
  · next h => rw [h]; rfl
  split
  · next h => rw [h]; rfl
  split
  · next hquote hslash _ _ _ _ _ h =>
    have hprintable : ¬c.toNat < 0x20 := by
      simp only [Bool.and_eq_true, decide_eq_true_eq] at h
      omega
    simp [stringChar, hquote, hslash, hprintable]
  split
  · next h =>
    rw [unitEscape, List.cons_append, List.cons_append, stringChar_escape,
      unicodeEscape_hex h (isSurrogate_toNat c).1 hrest, charOfUnit_toNat]
    rfl
  · next h =>
    have hrange := toNat_range c
    have hhigh : isHighSurrogate (0xD800 + (c.toNat - 0x10000) / 0x400) := by
      simp only [isHighSurrogate, Bool.and_eq_true, decide_eq_true_eq]
      omega
    have hlow : isLowSurrogate (0xDC00 + (c.toNat - 0x10000) % 0x400) := by
      simp only [isLowSurrogate, Bool.and_eq_true, decide_eq_true_eq]
      omega
    show stringChar opened (unitEscape _ ++ unitEscape _ ++ rest) = _
    rw [List.append_assoc, unitEscape, List.cons_append, List.cons_append, stringChar_escape,
      unicodeEscape_pair hhigh hlow hrest, joinSurrogates_halves (Nat.le_of_not_lt h)]
    rfl

/-! ## A text -/

theorem writeChar_ne_nil (c : Char) : writeChar c ≠ [] := by
  unfold writeChar unitEscape
  repeat' split
  all_goals simp

theorem length_le_flatMap_writeChar (t : Text) : t.length ≤ (t.flatMap writeChar).length := by
  induction t with
  | nil => exact Nat.le_refl 0
  | cons c t ih =>
    have hc := List.length_pos_iff.mpr (writeChar_ne_nil c)
    rw [List.flatMap_cons, List.length_append, List.length_cons]
    omega

theorem stringRest_write (t : Text) {fuel : Nat} (hfuel : t.length < fuel) :
    stringRest opened fuel (t.flatMap writeChar ++ '\x22' :: rest) = .ok (t, rest) := by
  induction t generalizing fuel with
  | nil =>
    obtain ⟨fuel, rfl⟩ := Nat.exists_eq_add_of_lt hfuel
    rfl
  | cons c t ih =>
    obtain ⟨fuel, rfl⟩ := Nat.exists_eq_add_of_lt (Nat.zero_lt_of_lt hfuel)
    have hgoes : t.flatMap writeChar ++ '\x22' :: rest ≠ [] := by simp
    rw [Nat.zero_add, stringRest, List.flatMap_cons, List.append_assoc,
      stringChar_writeChar c hgoes]
    simp only [bind, Except.bind]
    rw [ih (by simpa using hfuel)]

/-- **Main.** A text written as a string is read as the text. -/
theorem string_write (t rest : Text) :
    string (t.flatMap writeChar ++ '\x22' :: rest) = .ok (t, rest) := by
  have hlength := length_le_flatMap_writeChar t
  rw [string]
  refine stringRest_write t ?_
  rw [List.length_append]
  omega

end SqlInterchange.Json
