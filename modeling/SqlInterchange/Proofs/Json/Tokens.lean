import SqlInterchange.Proofs.Json.Steps
import SqlInterchange.Proofs.Json.Strings

/-! # Strings and numbers are read from their text alone

What a reader of strings takes off a text it takes off whatever goes on behind it
(`exists_of_string`), and so does a reader of scalars, if no number goes on there
(`exists_of_scalar`).  An escape with the first half of a character is read together with what
follows it; but then the string goes on behind it, and the second half, if it is one, is in the
string (`ReadsString.no_lowSurrogate`).

A number stops the reading only if it begins with an integer of more digits than are read, and no
fraction and no exponent follows (`BeginsInteger`).
-/
namespace SqlInterchange.Json

/-! ## Strings -/

/-- Whether a text is read as the rest of a string, before every text. -/
def ReadsString (a s : Text) : Prop :=
  ∀ opened fuel rest, a.length ≤ fuel → stringRest opened fuel (a ++ rest) = .ok (s, rest)

namespace ReadsString

variable {a s t rest rest' : Text}

theorem ne_nil (h : ReadsString a s) : a ≠ [] := by
  rintro rfl
  cases h [] 0 [] (Nat.le_refl 0)

/-- An escape with a number at the start of what is read as the rest of a string is all in it,
and the string goes on behind it. -/
theorem escape (h : ReadsString a s) (ht : a ++ rest = '\\' :: 'u' :: t) :
    ∃ p q r w e more n, a = '\\' :: 'u' :: p :: q :: r :: w :: e :: more ∧
      hexValue4? p q r w = some n := by
  match a, h, ht with
  | [], h, _ => exact absurd rfl h.ne_nil
  | [c], h, ht =>
    cases ht
    cases h [] 1 [] (Nat.le_refl 1)
  | c :: d :: x, h, ht =>
    cases ht
    have hread := h [] (x.length + 2) [] (Nat.le_refl _)
    rw [List.append_nil, stringRest, stringChar_escape] at hread
    unfold unicodeEscape at hread
    split at hread
    · next p q r w e more =>
      split at hread
      · cases hread
      · next n hn => exact ⟨p, q, r, w, e, more, n, rfl, hn⟩
    · cases hread

/-- Whether there is a second half does not depend on what is behind the string. -/
theorem no_lowSurrogate (h : ReadsString a s) (hnone : lowSurrogate? (a ++ rest) = .ok none) :
    lowSurrogate? (a ++ rest') = .ok none := by
  by_cases hescape : ∃ t, a ++ rest' = '\\' :: 'u' :: t
  · obtain ⟨t, ht⟩ := hescape
    obtain ⟨p, q, r, w, e, more, n, rfl, hn⟩ := h.escape ht
    simpa [lowSurrogate?, hn] using hnone
  · unfold lowSurrogate?
    split
    · next p q r w e more heq => exact absurd ⟨_, heq⟩ hescape
    · rfl

end ReadsString

variable {opened t after : Text}

theorem lowSurrogate?_eq_some {low : Nat} (h : lowSurrogate? t = .ok (some (low, after))) :
    ∃ p q r w e more, t = '\\' :: 'u' :: p :: q :: r :: w :: e :: more ∧ after = e :: more ∧
      hexValue4? p q r w = some low ∧ isLowSurrogate low := by
  unfold lowSurrogate? at h
  split at h
  · next p q r w e more =>
    split at h
    · cases h
    · next n hn =>
      by_cases hlow : isLowSurrogate n
      · rw [if_pos hlow] at h
        cases h
        exact ⟨p, q, r, w, e, more, rfl, rfl, hn, hlow⟩
      · rw [if_neg hlow] at h
        cases h
  · cases h

/-- An escape with a number is a character, or the first half of one of which the second half
follows. -/
theorem unicodeEscape_eq_ok {c : Char} (h : unicodeEscape t = .ok (c, after)) :
    ∃ p q r w e more n, t = p :: q :: r :: w :: e :: more ∧ hexValue4? p q r w = some n ∧
      (c = charOfUnit n ∧ after = e :: more ∧
          (isHighSurrogate n → lowSurrogate? after = .ok none) ∨
        isHighSurrogate n ∧ ∃ low, c = joinSurrogates n low ∧
          lowSurrogate? (e :: more) = .ok (some (low, after))) := by
  unfold unicodeEscape at h
  split at h
  · next p q r w e more =>
    split at h
    · cases h
    · next n hn =>
      refine ⟨p, q, r, w, e, more, n, rfl, hn, ?_⟩
      split at h
      · next hhigh =>
        obtain ⟨low?, hlow, h⟩ := exists_of_bind_eq_ok h
        cases low? with
        | none =>
          cases h
          exact .inl ⟨rfl, rfl, fun _ => hlow⟩
        | some low =>
          obtain ⟨rfl, rfl⟩ := Prod.mk.inj (Except.ok.inj h)
          exact .inr ⟨hhigh, low.1, rfl, hlow⟩
      · next hhigh =>
        cases h
        exact .inl ⟨rfl, rfl, fun hhigh' => absurd hhigh' hhigh⟩
  · cases h

/-- An escape with a number is read alike before the rest of the string, whatever is behind
this. -/
theorem exists_of_unicodeEscape {c : Char} (h : unicodeEscape t = .ok (c, after)) :
    ∃ b, t = b ++ after ∧ ∀ {a s rest}, ReadsString a s → after = a ++ rest → ∀ rest',
      unicodeEscape (b ++ (a ++ rest')) = .ok (c, a ++ rest') := by
  obtain ⟨p, q, r, w, e, more, n, rfl, hn, hcase⟩ := unicodeEscape_eq_ok h
  rcases hcase with ⟨hc, rfl, hnone⟩ | ⟨hhigh, low, hc, hlow⟩
  · refine ⟨[p, q, r, w], rfl, fun {a s rest} ha hafter rest' => ?_⟩
    have hnone' (hhigh : isHighSurrogate n) : lowSurrogate? (a ++ rest') = .ok none :=
      ha.no_lowSurrogate (hafter ▸ hnone hhigh)
    obtain ⟨d, a, rfl⟩ := List.exists_cons_of_ne_nil ha.ne_nil
    rw [List.cons_append] at hnone' ⊢
    rw [hc]
    by_cases hhigh : isHighSurrogate n
    · simp only [List.cons_append, List.nil_append, unicodeEscape, hn, if_pos hhigh, hnone' hhigh]
      rfl
    · simp only [List.cons_append, List.nil_append, unicodeEscape, hn, if_neg hhigh]
  · obtain ⟨p', q', r', w', d, more', heq, rfl, hn', hlow'⟩ := lowSurrogate?_eq_some hlow
    refine ⟨[p, q, r, w, '\\', 'u', p', q', r', w'], by rw [heq]; rfl,
      fun {a s rest} ha _ rest' => ?_⟩
    obtain ⟨x, a, rfl⟩ := List.exists_cons_of_ne_nil ha.ne_nil
    rw [hc]
    simp only [List.cons_append, List.nil_append, unicodeEscape, hn, if_pos hhigh, lowSurrogate?,
      hn', if_pos hlow']
    rfl

/-- What is made of the next character of a string. -/
inductive ReadsChar : Text → Reading (Option Char × Text) → Prop
  | quote (rest : Text) : ReadsChar ('\x22' :: rest) (.ok (none, rest))
  | number {t rest : Text} {c : Char} (h : unicodeEscape t = .ok (c, rest)) :
    ReadsChar ('\\' :: 'u' :: t) (.ok (some c, rest))
  | short {e c : Char} (hu : e ≠ 'u') (h : unescape? e = some c) (rest : Text) :
    ReadsChar ('\\' :: e :: rest) (.ok (some c, rest))
  | plain {c : Char} (hquote : c ≠ '\x22') (hslash : c ≠ '\\') (hprintable : ¬c.toNat < 0x20)
    (rest : Text) : ReadsChar (c :: rest) (.ok (some c, rest))
  | numberStops {t : Text} {stop : Stop} (h : unicodeEscape t = .error stop) :
    ReadsChar ('\\' :: 'u' :: t) (.error stop)
  | complains (t : Text) {kind : Complaint} (h : kind ≠ .expectingValue) (left : Nat) :
    ReadsChar t (.error (.complaint kind left))

theorem readsChar_stringChar (opened t : Text) : ReadsChar t (stringChar opened t) := by
  unfold stringChar
  split
  · exact .complains _ (by decide) _
  · next c cs =>
    split
    · next hquote => exact hquote ▸ .quote cs
    · next hquote =>
      split
      · next hslash =>
        subst hslash
        split
        · exact .complains _ (by decide) _
        · next e rest =>
          split
          · next hu =>
            subst hu
            cases hescape : unicodeEscape rest with
            | error stop => exact .numberStops hescape
            | ok result => exact .number hescape
          · next hu =>
            split
            · next ch hch => exact .short hu hch rest
            · exact .complains _ (by decide) _
      · next hslash =>
        split
        · exact .complains _ (by decide) _
        · next hprintable => exact .plain hquote hslash hprintable cs

/-- A character of a string is read alike before the rest of the string, whatever is behind
this. -/
theorem exists_of_stringChar {c : Char} (h : stringChar opened t = .ok (some c, after)) :
    ∃ b, t = b ++ after ∧ b ≠ [] ∧ ∀ {a s rest}, ReadsString a s → after = a ++ rest →
      ∀ opened' rest', stringChar opened' (b ++ (a ++ rest')) = .ok (some c, a ++ rest') := by
  have hread := readsChar_stringChar opened t
  rw [h] at hread
  cases hread with
  | number hescape =>
    obtain ⟨b, rfl, hb⟩ := exists_of_unicodeEscape hescape
    refine ⟨'\\' :: 'u' :: b, rfl, List.cons_ne_nil _ _, ?_⟩
    intro a s rest ha hafter opened' rest'
    rw [List.cons_append, List.cons_append, stringChar_escape, hb ha hafter rest']
    rfl
  | @short e _ hu hc =>
    refine ⟨['\\', e], rfl, List.cons_ne_nil _ _, ?_⟩
    intro a s rest _ _ opened' rest'
    simp [stringChar, hu, hc]
  | plain hquote hslash hprintable =>
    refine ⟨[c], rfl, List.cons_ne_nil _ _, ?_⟩
    intro a s rest _ _ opened' rest'
    simp [stringChar, hquote, hslash, hprintable]

theorem eq_cons_of_stringChar (h : stringChar opened t = .ok (none, after)) :
    t = '\x22' :: after := by
  have hread := readsChar_stringChar opened t
  rw [h] at hread
  cases hread with
  | quote => rfl

/-- The rest of a string is read from its text alone. -/
theorem exists_of_stringRest {fuel : Nat} {s : Text}
    (h : stringRest opened fuel t = .ok (s, after)) : ∃ a, t = a ++ after ∧ ReadsString a s := by
  induction fuel generalizing t s with
  | zero => cases h
  | succ fuel ih =>
    obtain ⟨⟨c?, behind⟩, hchar, h⟩ := exists_of_bind_eq_ok h
    cases c? with
    | none =>
      cases h
      refine ⟨['\x22'], eq_cons_of_stringChar hchar, fun opened fuel rest hfuel => ?_⟩
      obtain ⟨fuel, rfl⟩ := Nat.exists_eq_add_of_le' hfuel
      rfl
    | some c =>
      obtain ⟨⟨cs, _⟩, hmore, h⟩ := exists_of_bind_eq_ok h
      cases h
      obtain ⟨a, rfl, ha⟩ := ih hmore
      obtain ⟨b, rfl, hne, hb⟩ := exists_of_stringChar hchar
      refine ⟨b ++ a, (List.append_assoc ..).symm, fun opened fuel rest hfuel => ?_⟩
      have hlength := List.length_pos_iff.mpr hne
      rw [List.length_append] at hfuel
      obtain ⟨fuel, rfl⟩ := Nat.exists_eq_add_of_le' (show 1 ≤ fuel by omega)
      rw [List.append_assoc, stringRest, hb ha rfl opened rest]
      simp only [bind, Except.bind, ha opened fuel rest (by omega)]

/-- A string is read from its text alone. -/
theorem exists_of_string {s : Text} (h : string t = .ok (s, after)) :
    ∃ a, t = a ++ after ∧ ReadsString a s := exists_of_stringRest h

theorem ReadsString.string {a s : Text} (h : ReadsString a s) (rest : Text) :
    string (a ++ rest) = .ok (s, rest) := by
  refine h _ _ _ ?_
  rw [List.length_append]
  omega

/-! ## Numbers -/

variable {t rest : Text}

theorem digitRun_append_rest (t : Text) : (digitRun t).1 ++ (digitRun t).2 = t :=
  List.takeWhile_append_dropWhile

theorem isDigit_of_mem_digitRun (t : Text) : ∀ c ∈ (digitRun t).1, c.isDigit :=
  fun _ hc => List.mem_takeWhile_imp hc

theorem endsDigits_digitRun (t : Text) : EndsDigits (digitRun t).2 := by
  intro c hc
  have hhead := List.head?_dropWhile_not Char.isDigit t
  rw [digitRun, Option.mem_def] at hc
  rw [hc] at hhead
  simpa using hhead

theorem wholePart?_eq_some {ws : Text} (h : wholePart? t = some (ws, rest)) :
    t = ws ++ rest ∧ IsWhole ws ∧ (ws = ['0'] ∨ EndsDigits rest) := by
  unfold wholePart? at h
  split at h
  · cases h
  · next c cs =>
    split at h
    · next hzero =>
      cases h
      exact ⟨by rw [hzero]; rfl, isWhole_singleton rfl, .inl rfl⟩
    · next hzero =>
      split at h
      · next hc =>
        obtain ⟨hws, hrest⟩ := Prod.mk.inj (Option.some.inj h)
        have hfirst : ws = c :: cs.takeWhile Char.isDigit := by
          rw [← hws, List.takeWhile_cons_of_pos hc]
        subst hrest
        refine ⟨hws ▸ (digitRun_append_rest (c :: cs)).symm, ⟨?_, ?_, ?_⟩,
          .inr (endsDigits_digitRun (c :: cs))⟩
        · simp [hfirst]
        · exact hws ▸ isDigit_of_mem_digitRun (c :: cs)
        · rw [hfirst]
          exact fun heq => absurd (Option.some.inj heq) hzero
      · cases h

theorem fraction?_eq_some {ds : Text} (h : fraction? t = some (ds, rest)) :
    t = '.' :: (ds ++ rest) ∧ ds ≠ [] ∧ ∀ c ∈ ds, c.isDigit := by
  unfold fraction? at h
  split at h
  · next d cs =>
    split at h
    · next hd =>
      obtain ⟨hds, hrest⟩ := Prod.mk.inj (Option.some.inj h)
      subst hrest hds
      refine ⟨?_, ?_, isDigit_of_mem_digitRun (d :: cs)⟩
      · exact congrArg ('.' :: ·) (digitRun_append_rest (d :: cs)).symm
      · rw [List.takeWhile_cons_of_pos hd]
        exact List.cons_ne_nil _ _
    · cases h
  · cases h

theorem signedDigits?_sign {sign : Char} (hsign : sign = '-' ∨ sign = '+') (cs : Text) :
    signedDigits? (sign :: cs) = if (digitRun cs).1.isEmpty then none
      else some (if sign = '-' then -(Decimal.value (digitRun cs).1 : Int)
        else Decimal.value (digitRun cs).1, (digitRun cs).2) := by
  rcases hsign with rfl | rfl
  · rfl
  · rfl

/-- Text that starts with no sign is read as digits. -/
theorem signedDigits?_eq {c : Char} (hsign : ¬(c = '-' ∨ c = '+')) (cs : Text) :
    signedDigits? (c :: cs) = if (digitRun (c :: cs)).1.isEmpty then none
      else some ((Decimal.value (digitRun (c :: cs)).1 : Int), (digitRun (c :: cs)).2) := by
  obtain ⟨hminus, hplus⟩ := not_or.mp hsign
  unfold signedDigits?
  split
  next heq =>
    split at heq
    · next h => exact absurd (List.cons.inj h).1 hminus
    · next h => exact absurd (List.cons.inj h).1 hplus
    · cases heq
      rfl

theorem signedDigits?_digits {ds : Text} (hne : ds ≠ []) (hds : ∀ c ∈ ds, c.isDigit)
    (hrest : EndsDigits rest) :
    signedDigits? (ds ++ rest) = some ((Decimal.value ds : Int), rest) := by
  have hrun := digitRun_append hds hrest
  obtain ⟨d, ds, rfl⟩ := List.exists_cons_of_ne_nil hne
  have hsign : ¬(d = '-' ∨ d = '+') := by
    have hd := hds d (List.mem_cons_self ..)
    rintro (rfl | rfl)
    · cases hd
    · cases hd
  rw [List.cons_append] at hrun ⊢
  rw [signedDigits?_eq hsign, hrun]
  rfl

/-- What is read as a sign and digits is read so before every text that goes on with no digit. -/
theorem exists_of_signedDigits {n : Int} (h : signedDigits? t = some (n, rest)) :
    ∃ x, t = x ++ rest ∧
      ∀ rest', EndsDigits rest' → signedDigits? (x ++ rest') = some (n, rest') := by
  cases t with
  | nil => cases h
  | cons c cs =>
    by_cases hsign : c = '-' ∨ c = '+'
    · rw [signedDigits?_sign hsign] at h
      split at h
      · cases h
      · next hne =>
        cases h
        refine ⟨c :: (digitRun cs).1, congrArg (c :: ·) (digitRun_append_rest cs).symm,
          fun rest' hrest' => ?_⟩
        exact signedDigits?_append hsign (by simpa using hne) (isDigit_of_mem_digitRun cs) hrest'
    · rw [signedDigits?_eq hsign] at h
      split at h
      · cases h
      · next hne =>
        cases h
        refine ⟨(digitRun (c :: cs)).1, (digitRun_append_rest _).symm, fun rest' hrest' => ?_⟩
        exact signedDigits?_digits (by simpa using hne) (isDigit_of_mem_digitRun _) hrest'

theorem exists_of_exponent {e : Int} (h : exponent? t = some (e, rest)) :
    ∃ x, t = x ++ rest ∧
      ∀ rest', EndsDigits rest' → exponent? (x ++ rest') = some (e, rest') := by
  cases t with
  | nil => cases h
  | cons c cs =>
    rw [exponent?] at h
    split at h
    · next hc =>
      obtain ⟨x, rfl, hx⟩ := exists_of_signedDigits h
      refine ⟨c :: x, rfl, fun rest' hrest' => ?_⟩
      rw [List.cons_append, exponent?, if_pos hc, hx rest' hrest']
    · cases h

variable {negative : Bool}

/-- What is made of a number without its sign, by the parts that it has. -/
inductive ReadsUnsigned (negative : Bool) : Text → Reading (Value × Text) → Prop
  | integer {ws : Text} (hws : IsWhole ws) (hlength : ws.length ≤ maxDigits) (rest : Text) :
    ReadsUnsigned negative (ws ++ rest)
      (.ok (.int (if negative then -(Decimal.value ws : Int) else Decimal.value ws), rest))
  | overlong {ws rest : Text} (hws : IsWhole ws) (hlength : maxDigits < ws.length)
    (hrest : EndsDigits rest) (hfraction : fraction? rest = none)
    (hexponent : exponent? rest = none) :
    ReadsUnsigned negative (ws ++ rest) (.error (.integerTooLong ws.length))
  | fraction {ws ds : Text} (hws : IsWhole ws) (hne : ds ≠ []) (hds : ∀ c ∈ ds, c.isDigit)
    (rest : Text) : ReadsUnsigned negative (ws ++ '.' :: (ds ++ rest))
      (.ok (.float (.ofDecimal negative (Decimal.value (ws ++ ds)) (-(ds.length : Int))), rest))
  | exponent {ws t rest : Text} {e : Int} (hws : IsWhole ws) (h : exponent? t = some (e, rest)) :
    ReadsUnsigned negative (ws ++ t)
      (.ok (.float (.ofDecimal negative (Decimal.value ws) e), rest))
  | fractionExponent {ws ds t rest : Text} {e : Int} (hws : IsWhole ws) (hne : ds ≠ [])
    (hds : ∀ c ∈ ds, c.isDigit) (h : exponent? t = some (e, rest)) :
    ReadsUnsigned negative (ws ++ '.' :: (ds ++ t))
      (.ok (.float (.ofDecimal negative (Decimal.value (ws ++ ds)) (e - ds.length)), rest))

theorem readsUnsigned_of_unsigned {result : Reading (Value × Text)}
    (h : unsigned? negative t = some result) : ReadsUnsigned negative t result := by
  cases hwhole : wholePart? t with
  | none => simp [unsigned?, hwhole] at h
  | some whole =>
    obtain ⟨ws, behind⟩ := whole
    obtain ⟨rfl, hws, hends⟩ := wholePart?_eq_some hwhole
    simp only [unsigned?, hwhole, Option.bind_eq_bind, Option.bind_some] at h
    cases hfraction : fraction? behind with
    | none =>
      cases hexponent : exponent? behind with
      | none =>
        simp only [hfraction, hexponent, Option.elim] at h
        split at h
        · next hlength =>
          have hrest : EndsDigits behind := hends.resolve_left fun hzero => by
            rw [hzero] at hlength
            exact absurd hlength (by decide)
          exact Option.some.inj h ▸ .overlong hws hlength hrest hfraction hexponent
        · next hlength =>
          exact Option.some.inj h ▸ .integer hws (Nat.le_of_not_lt hlength) behind
      | some exponent =>
        simp only [hfraction, hexponent, Option.elim] at h
        exact Option.some.inj h ▸ .exponent hws hexponent
    | some fraction =>
      obtain ⟨rfl, hne, hds⟩ := fraction?_eq_some hfraction
      cases hexponent : exponent? fraction.2 with
      | none =>
        simp only [hfraction, hexponent, Option.elim] at h
        exact Option.some.inj h ▸ .fraction hws hne hds fraction.2
      | some exponent =>
        simp only [hfraction, hexponent, Option.elim] at h
        exact Option.some.inj h ▸ .fractionExponent hws hne hds hexponent

/-- A number without its sign is read from its text alone. -/
theorem exists_of_unsigned {v : Value} (h : unsigned? negative t = some (.ok (v, rest))) :
    ∃ a, t = a ++ rest ∧
      ∀ rest', Ends rest' → unsigned? negative (a ++ rest') = some (.ok (v, rest')) := by
  cases readsUnsigned_of_unsigned h with
  | integer hws hlength =>
    exact ⟨_, rfl, fun rest' => unsigned?_integer negative hws hlength⟩
  | @fraction ws ds hws hne hds =>
    refine ⟨ws ++ '.' :: ds, by simp, fun rest' hrest' => ?_⟩
    rw [List.append_assoc, List.cons_append, unsigned?_fraction negative hws hne hds hrest']
  | @exponent ws _ _ _ hws hexponent =>
    obtain ⟨x, rfl, hx⟩ := exists_of_exponent hexponent
    refine ⟨ws ++ x, (List.append_assoc ..).symm, fun rest' hrest' => ?_⟩
    rw [List.append_assoc, unsigned?_exponent negative hws (hx rest' hrest'.digits)]
  | @fractionExponent ws ds _ _ _ hws hne hds hexponent =>
    obtain ⟨x, rfl, hx⟩ := exists_of_exponent hexponent
    refine ⟨ws ++ '.' :: (ds ++ x), by simp, fun rest' hrest' => ?_⟩
    rw [List.append_assoc, List.cons_append, List.append_assoc,
      unsigned?_fraction_exponent negative hws hne hds (hx rest' hrest'.digits)]

/-- Whether a text begins with an integer of so many digits, that no fraction and no exponent
follows. -/
def BeginsInteger (n : Nat) (t : Text) : Prop :=
  ∃ (negative : Bool) (ds rest : Text), t = (if negative then ['-'] else []) ++ (ds ++ rest) ∧
    IsWhole ds ∧ ds.length = n ∧ EndsDigits rest ∧ fraction? rest = none ∧ exponent? rest = none

/-- A number stops the reading only if it is an integer that is too long. -/
theorem unsigned?_eq_error {stop : Stop} (h : unsigned? negative t = some (.error stop)) :
    ∃ n, stop = .integerTooLong n ∧ maxDigits < n ∧
      BeginsInteger n ((if negative then ['-'] else []) ++ t) := by
  cases readsUnsigned_of_unsigned h with
  | overlong hws hlength hrest hfraction hexponent =>
    exact ⟨_, rfl, hlength, negative, _, _, rfl, hws, rfl, hrest, hfraction, hexponent⟩

/-! ## Scalars -/

theorem eq_append_of_stripStart? {start : Text} (h : Text.stripStart? start t = some rest) :
    t = start ++ rest := by
  induction start generalizing t with
  | nil =>
    cases h
    rfl
  | cons s start ih =>
    cases t with
    | nil => cases h
    | cons c cs =>
      rw [Text.stripStart?] at h
      split at h
      · next heq => rw [ih h, heq, List.cons_append]
      · cases h

theorem exists_of_word {v : Value} (h : word? t = some (v, rest)) :
    ∃ w ∈ words, t = w.1.toList ++ rest ∧ v = w.2 := by
  obtain ⟨w, hw, hstrip⟩ := List.exists_of_findSome?_eq_some h
  obtain ⟨rest', hrest, heq⟩ := Option.map_eq_some_iff.mp hstrip
  cases heq
  exact ⟨w, hw, eq_append_of_stripStart? hrest, rfl⟩

/-- A word is read before every text. -/
theorem scalar_word {w : String × Value} (hw : w ∈ words) (rest : Text) :
    scalar (w.1.toList ++ rest) = .ok (w.2, rest) := by
  simp only [words, List.mem_cons, List.not_mem_nil, or_false] at hw
  rcases hw with rfl | rfl | rfl | rfl | rfl | rfl
  all_goals rfl

theorem exists_of_number {result : Reading (Value × Text)} (h : number? t = some result) :
    ∃ negative t', t = (if negative then ['-'] else []) ++ t' ∧
      unsigned? negative t' = some result := by
  unfold number? at h
  split at h
  · next cs => exact ⟨true, cs, rfl, h⟩
  · exact ⟨false, t, rfl, h⟩

/-- A scalar is read from its text alone. -/
theorem exists_of_scalar {v : Value} (h : scalar t = .ok (v, rest)) :
    ∃ a, t = a ++ rest ∧ ∀ rest', Ends rest' → scalar (a ++ rest') = .ok (v, rest') := by
  rw [scalar] at h
  split at h
  · next hword =>
    cases h
    obtain ⟨w, hw, rfl, rfl⟩ := exists_of_word hword
    exact ⟨_, rfl, fun rest' _ => scalar_word hw rest'⟩
  · cases hnumber : number? t with
    | none =>
      rw [hnumber] at h
      cases h
    | some result =>
      rw [hnumber] at h
      cases h
      obtain ⟨negative, t', rfl, hunsigned⟩ := exists_of_number hnumber
      obtain ⟨a, rfl, ha⟩ := exists_of_unsigned hunsigned
      refine ⟨_, (List.append_assoc ..).symm, fun rest' hrest' => ?_⟩
      rw [List.append_assoc]
      exact scalar_of_unsigned negative (ha rest' hrest')

/-- A text is no scalar, or it begins with an integer that is too long. -/
theorem scalar_eq_error {stop : Stop} (h : scalar t = .error stop) :
    stop = .complaint .expectingValue t.length ∨
      ∃ n, stop = .integerTooLong n ∧ maxDigits < n ∧ BeginsInteger n t := by
  rw [scalar] at h
  split at h
  · cases h
  · cases hnumber : number? t with
    | none =>
      rw [hnumber] at h
      cases h
      exact .inl rfl
    | some result =>
      rw [hnumber] at h
      cases h
      obtain ⟨negative, t', rfl, hunsigned⟩ := exists_of_number hnumber
      exact .inr (unsigned?_eq_error hunsigned)

theorem scalar_of_beginsInteger {n : Nat} (h : BeginsInteger n t) (hn : maxDigits < n) :
    scalar t = .error (.integerTooLong n) := by
  obtain ⟨negative, ds, rest, rfl, hds, rfl, hrest, hfraction, hexponent⟩ := h
  refine scalar_of_unsigned negative ?_
  simp [unsigned?, wholePart?_append hds hrest, hfraction, hexponent, hn]

end SqlInterchange.Json
