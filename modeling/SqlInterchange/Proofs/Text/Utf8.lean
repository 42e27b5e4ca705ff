import Mathlib.Data.List.Basic
import SqlInterchange.Text.Utf8

/-! # UTF-8 reads back

The bytes of a text, read strictly, give the text (`decode_encode`).  Each character is one piece:
a byte below `0x80`, or a sequence whose first byte tells how many follow.  The range for the
second byte, which keeps out what is no character, lets through the bytes of every character.

No other bytes give a text (`decode_eq_ok_iff`).  The ranges let through nothing else: each number
has one sequence, the shortest, and the numbers that are no characters have none.
-/
namespace SqlInterchange.Utf8

/-! ## One byte -/

theorem toNat_ofNat {n : Nat} (h : n < 256) : (UInt8.ofNat n).toNat = n := by
  rw [UInt8.toNat_ofNat', Nat.mod_eq_of_lt h]

variable {bs : List UInt8} {b : UInt8} {q : Sequence}

theorem piecesFrom_char {c : Char} (h : start b = .inl (.char c)) :
    piecesFrom none (b :: bs) = .char c :: piecesFrom none bs := by
  rw [piecesFrom, h]

theorem piecesFrom_sequence (h : start b = .inr q) :
    piecesFrom none (b :: bs) = piecesFrom (some q) bs := by
  rw [piecesFrom, h]

/-- A byte in range continues a sequence. -/
theorem piecesFrom_continue {n : Nat} (hb : b.toNat = n) (hlow : q.low.toNat ≤ n)
    (hhigh : n ≤ q.high.toNat) (howed : 1 < q.owed) :
    piecesFrom (some q) (b :: bs) =
      piecesFrom (some ⟨q.lead, q.taken + 1, q.owed - 1, 0x80, 0xBF,
        q.payload * 64 + n % 64⟩) bs := by
  rw [← hb, ← UInt8.le_iff_toNat_le] at hlow hhigh
  rw [piecesFrom]
  simp [hlow, hhigh, hb, Sequence.push, Nat.not_le.mpr howed]

/-- A byte in range completes a sequence that owes one. -/
theorem piecesFrom_complete {n : Nat} (hb : b.toNat = n) (hlow : q.low.toNat ≤ n)
    (hhigh : n ≤ q.high.toNat) (howed : q.owed = 1) :
    piecesFrom (some q) (b :: bs) =
      .char (Char.ofNat (q.payload * 64 + n % 64)) :: piecesFrom none bs := by
  rw [← hb, ← UInt8.le_iff_toNat_le] at hlow hhigh
  rw [piecesFrom]
  simp [hlow, hhigh, hb, Sequence.push, howed]

theorem start_one (h : b.toNat < 0x80) : start b = .inl (.char (Char.ofNat b.toNat)) := by
  rw [start, if_pos (UInt8.lt_iff_toNat_lt.mpr h)]

theorem start_two (hlow : 0xC2 ≤ b.toNat) (hhigh : b.toNat < 0xE0) :
    start b = .inr ⟨b, 1, 1, 0x80, 0xBF, b.toNat % 32⟩ := by
  simp only [start, UInt8.lt_iff_toNat_lt, UInt8.reduceToNat]
  rw [if_neg (by omega), if_neg (by omega), if_pos hhigh]

theorem start_three (hlow : 0xE0 ≤ b.toNat) (hhigh : b.toNat < 0xF0) :
    start b = .inr ⟨b, 1, 2, if b.toNat = 0xE0 then 0xA0 else 0x80,
      if b.toNat = 0xED then 0x9F else 0xBF, b.toNat % 16⟩ := by
  simp only [start, UInt8.lt_iff_toNat_lt, ← UInt8.toNat_inj, UInt8.reduceToNat]
  rw [if_neg (by omega), if_neg (by omega), if_neg (by omega), if_pos hhigh]

theorem start_four (hlow : 0xF0 ≤ b.toNat) (hhigh : b.toNat < 0xF5) :
    start b = .inr ⟨b, 1, 3, if b.toNat = 0xF0 then 0x90 else 0x80,
      if b.toNat = 0xF4 then 0x8F else 0xBF, b.toNat % 8⟩ := by
  simp only [start, UInt8.lt_iff_toNat_lt, ← UInt8.toNat_inj, UInt8.reduceToNat]
  rw [if_neg (by omega), if_neg (by omega), if_neg (by omega), if_neg (by omega), if_pos hhigh]

/-! ## One character -/

/-- The numbers of characters. -/
theorem toNat_cases (c : Char) : c.toNat < 0xD800 ∨ 0xDFFF < c.toNat ∧ c.toNat < 0x110000 :=
  c.valid

theorem piecesFrom_encodeChar (c : Char) (bs : List UInt8) :
    piecesFrom none (encodeChar c ++ bs) = .char c :: piecesFrom none bs := by
  have hc := toNat_cases c
  have hchar : Char.ofNat c.toNat = c := Char.ofNat_toNat c
  rw [encodeChar, String.utf8EncodeChar]
  simp only [show c.val.toNat = c.toNat from rfl]
  generalize c.toNat = n at hc hchar
  subst hchar
  -- each byte as the number that it is
  have hbyte {m : Nat} (hm : m < 256) : (UInt8.ofNat m).toNat = m := toNat_ofNat hm
  split
  · next h =>
    have hlead := hbyte (show n < 256 by omega)
    rw [List.singleton_append, piecesFrom_char (start_one (by omega)), hlead]
  split
  · next h =>
    have hlead := hbyte (show n / 64 % 32 + 192 < 256 by omega)
    have hlast := hbyte (show n % 64 + 128 < 256 by omega)
    simp only [List.cons_append, List.nil_append]
    rw [piecesFrom_sequence (start_two (by omega) (by omega)), hlead,
      piecesFrom_complete hlast (show 128 ≤ _ by omega) (show _ ≤ 191 by omega) rfl]
    congr 3
    simp only
    omega
  split
  · next h =>
    have hlead := hbyte (show n / 4096 % 16 + 224 < 256 by omega)
    have hsecond := hbyte (show n / 64 % 64 + 128 < 256 by omega)
    have hlast := hbyte (show n % 64 + 128 < 256 by omega)
    simp only [List.cons_append, List.nil_append]
    rw [piecesFrom_sequence (start_three (by omega) (by omega)), hlead,
      piecesFrom_continue hsecond _ _ (show 1 < 2 by decide),
      piecesFrom_complete hlast (show 128 ≤ _ by omega) (show _ ≤ 191 by omega) rfl]
    · congr 3
      simp only
      omega
    · simp only
      split
      · show 160 ≤ _
        omega
      · show 128 ≤ _
        omega
    · simp only
      split
      · show _ ≤ 159
        omega
      · show _ ≤ 191
        omega
  · next h =>
    have hlead := hbyte (show n / 262144 % 8 + 240 < 256 by omega)
    have hsecond := hbyte (show n / 4096 % 64 + 128 < 256 by omega)
    have hthird := hbyte (show n / 64 % 64 + 128 < 256 by omega)
    have hlast := hbyte (show n % 64 + 128 < 256 by omega)
    simp only [List.cons_append, List.nil_append]
    rw [piecesFrom_sequence (start_four (by omega) (by omega)), hlead,
      piecesFrom_continue hsecond _ _ (show 1 < 3 by decide),
      piecesFrom_continue hthird (show 128 ≤ _ by omega) (show _ ≤ 191 by omega)
        (show 1 < 2 by decide),
      piecesFrom_complete hlast (show 128 ≤ _ by omega) (show _ ≤ 191 by omega) rfl]
    · congr 3
      simp only
      omega
    · simp only
      split
      · show 144 ≤ _
        omega
      · show 128 ≤ _
        omega
    · simp only
      split
      · show _ ≤ 143
        omega
      · show _ ≤ 191
        omega

/-! ## A text -/

theorem pieces_encode (t : Text) : pieces (encode t) = t.map .char := by
  induction t with
  | nil => rfl
  | cons c t ih =>
    rw [pieces, encode, List.flatMap_cons, piecesFrom_encodeChar]
    exact congrArg (Piece.char c :: ·) ih

theorem textOf_chars (position : Nat) (t : Text) : textOf position (t.map .char) = .ok t := by
  induction t generalizing position with
  | nil => rfl
  | cons c t ih => rw [List.map_cons, textOf, ih]; rfl

/-- **Main.** The bytes of a text are read as the text. -/
theorem decode_encode (t : Text) : decode (encode t) = .ok t := by
  rw [decode, pieces_encode, textOf_chars]

/-! ## What is read as a character -/

theorem ofNat_eq {n : Nat} (h : n = b.toNat) : UInt8.ofNat n = b := by
  rw [h, UInt8.ofNat_toNat]

theorem toNat_ofNat_of_valid {n : Nat} (h : n.isValidChar) : (Char.ofNat n).val.toNat = n := by
  rw [Char.ofNat, dif_pos h]
  rfl

variable {b₁ b₂ b₃ : UInt8}

theorem encodeChar_one (hb : b.toNat < 0x80) : encodeChar (Char.ofNat b.toNat) = [b] := by
  rw [encodeChar, String.utf8EncodeChar, toNat_ofNat_of_valid (.inl (by omega))]
  rw [if_pos (by omega), ofNat_eq rfl]

theorem encodeChar_two (hlow : 0xC2 ≤ b.toNat) (hhigh : b.toNat < 0xE0) (h₁ : 0x80 ≤ b₁.toNat)
    (h₁' : b₁.toNat ≤ 0xBF) :
    encodeChar (Char.ofNat (b.toNat % 32 * 64 + b₁.toNat % 64)) = [b, b₁] := by
  generalize hn : b.toNat % 32 * 64 + b₁.toNat % 64 = n
  rw [encodeChar, String.utf8EncodeChar, toNat_ofNat_of_valid (.inl (by omega))]
  rw [if_neg (by omega), if_pos (by omega), ofNat_eq (b := b) (by omega),
    ofNat_eq (b := b₁) (by omega)]

theorem encodeChar_three (hlow : 0xE0 ≤ b.toNat) (hhigh : b.toNat < 0xF0)
    (h₁ : (if b.toNat = 0xE0 then 0xA0 else 0x80) ≤ b₁.toNat)
    (h₁' : b₁.toNat ≤ if b.toNat = 0xED then 0x9F else 0xBF)
    (h₂ : 0x80 ≤ b₂.toNat) (h₂' : b₂.toNat ≤ 0xBF) :
    encodeChar (Char.ofNat ((b.toNat % 16 * 64 + b₁.toNat % 64) * 64 + b₂.toNat % 64)) =
      [b, b₁, b₂] := by
  generalize hn : (b.toNat % 16 * 64 + b₁.toNat % 64) * 64 + b₂.toNat % 64 = n
  have hvalid : n.isValidChar := by
    unfold Nat.isValidChar
    split at h₁ <;> split at h₁' <;> omega
  rw [encodeChar, String.utf8EncodeChar, toNat_ofNat_of_valid hvalid]
  have hrange : 0x7FF < n ∧ n ≤ 0xFFFF ∧ b₁.toNat ≤ 0xBF ∧ 0x80 ≤ b₁.toNat := by
    split at h₁ <;> split at h₁' <;> omega
  rw [if_neg (by omega), if_neg (by omega), if_pos (by omega), ofNat_eq (b := b) (by omega),
    ofNat_eq (b := b₁) (by omega), ofNat_eq (b := b₂) (by omega)]


theorem encodeChar_four (hlow : 0xF0 ≤ b.toNat) (hhigh : b.toNat < 0xF5)
    (h₁ : (if b.toNat = 0xF0 then 0x90 else 0x80) ≤ b₁.toNat)
    (h₁' : b₁.toNat ≤ if b.toNat = 0xF4 then 0x8F else 0xBF)
    (h₂ : 0x80 ≤ b₂.toNat) (h₂' : b₂.toNat ≤ 0xBF) (h₃ : 0x80 ≤ b₃.toNat)
    (h₃' : b₃.toNat ≤ 0xBF) :
    encodeChar (Char.ofNat (((b.toNat % 8 * 64 + b₁.toNat % 64) * 64 + b₂.toNat % 64) * 64 +
      b₃.toNat % 64)) = [b, b₁, b₂, b₃] := by
  generalize hn : ((b.toNat % 8 * 64 + b₁.toNat % 64) * 64 + b₂.toNat % 64) * 64 +
    b₃.toNat % 64 = n
  have hrange : 0xFFFF < n ∧ n < 0x110000 ∧ b₁.toNat ≤ 0xBF ∧ 0x80 ≤ b₁.toNat := by
    split at h₁ <;> split at h₁' <;> omega
  have hvalid : n.isValidChar := .inr (by omega)
  rw [encodeChar, String.utf8EncodeChar, toNat_ofNat_of_valid hvalid, if_neg (by omega),
    if_neg (by omega), if_neg (by omega), ofNat_eq (b := b) (by omega),
    ofNat_eq (b := b₁) (by omega), ofNat_eq (b := b₂) (by omega), ofNat_eq (b := b₃) (by omega)]

variable {c : Char} {ps : List Piece}

/-- A sequence that comes to a character goes on with a byte in range. -/
theorem exists_next (h : piecesFrom (some q) bs = .char c :: ps) :
    ∃ b bs', bs = b :: bs' ∧ q.low.toNat ≤ b.toNat ∧ b.toNat ≤ q.high.toNat ∧
      piecesFrom (some q) bs = match q.push b with
        | .inl p => p :: piecesFrom none bs'
        | .inr q => piecesFrom (some q) bs' := by
  cases bs with
  | nil => simp [piecesFrom] at h
  | cons b bs =>
    have hrange : (q.low ≤ b && b ≤ q.high) = true := by
      by_contra hout
      rw [piecesFrom] at h
      simp [hout] at h
    have hbounds : q.low.toNat ≤ b.toNat ∧ b.toNat ≤ q.high.toNat := by
      simpa [UInt8.le_iff_toNat_le] using hrange
    refine ⟨b, bs, rfl, hbounds.1, hbounds.2, ?_⟩
    rw [piecesFrom]
    exact if_pos hrange

theorem complete_of_char (howed : q.owed = 1) (h : piecesFrom (some q) bs = .char c :: ps) :
    ∃ b bs', bs = b :: bs' ∧ q.low.toNat ≤ b.toNat ∧ b.toNat ≤ q.high.toNat ∧
      c = Char.ofNat (q.payload * 64 + b.toNat % 64) ∧ piecesFrom none bs' = ps := by
  obtain ⟨b, bs', hbs, hlow, hhigh, hnext⟩ := exists_next h
  simp only [Sequence.push, howed, Nat.le_refl, if_true] at hnext
  obtain ⟨hc, hps⟩ := List.cons.inj (hnext.symm.trans h)
  exact ⟨b, bs', hbs, hlow, hhigh, (Piece.char.inj hc).symm, hps⟩

theorem continue_of_char (howed : 1 < q.owed) (h : piecesFrom (some q) bs = .char c :: ps) :
    ∃ b bs', bs = b :: bs' ∧ q.low.toNat ≤ b.toNat ∧ b.toNat ≤ q.high.toNat ∧
      piecesFrom (some ⟨q.lead, q.taken + 1, q.owed - 1, 0x80, 0xBF,
        q.payload * 64 + b.toNat % 64⟩) bs' = .char c :: ps := by
  obtain ⟨b, bs', hbs, hlow, hhigh, hnext⟩ := exists_next h
  simp only [Sequence.push, if_neg (Nat.not_le.mpr howed)] at hnext
  exact ⟨b, bs', hbs, hlow, hhigh, hnext.symm.trans h⟩

theorem start_malformed (h : 0x80 ≤ b.toNat ∧ b.toNat < 0xC2 ∨ 0xF5 ≤ b.toNat) :
    start b = .inl (.malformed b 1 .invalidStart) := by
  simp only [start, UInt8.lt_iff_toNat_lt, UInt8.reduceToNat]
  rcases h with h | h
  · rw [if_neg (by omega), if_pos (by omega)]
  · rw [if_neg (by omega), if_neg (by omega), if_neg (by omega), if_neg (by omega),
      if_neg (by omega)]

/-- What is read as a character is the bytes of the character. -/
theorem encodeChar_of_char (h : piecesFrom none (b :: bs) = .char c :: ps) :
    ∃ bs', b :: bs = encodeChar c ++ bs' ∧ piecesFrom none bs' = ps := by
  by_cases hone : b.toNat < 0x80
  · rw [piecesFrom_char (start_one hone)] at h
    obtain ⟨hc, hps⟩ := List.cons.inj h
    obtain rfl := Piece.char.inj hc
    exact ⟨bs, by rw [encodeChar_one hone]; rfl, hps⟩
  by_cases hstart : b.toNat < 0xC2 ∨ 0xF5 ≤ b.toNat
  · -- such a byte starts nothing
    rw [piecesFrom, start_malformed (by omega)] at h
    cases h
  by_cases htwo : b.toNat < 0xE0
  · rw [piecesFrom_sequence (start_two (by omega) htwo)] at h
    obtain ⟨b₁, bs', rfl, hlow, hhigh, rfl, hps⟩ := complete_of_char rfl h
    exact ⟨bs', by rw [encodeChar_two (by omega) htwo hlow hhigh]; rfl, hps⟩
  by_cases hthree : b.toNat < 0xF0
  · rw [piecesFrom_sequence (start_three (by omega) hthree)] at h
    obtain ⟨b₁, bs', rfl, hlow, hhigh, h⟩ := continue_of_char (show 1 < 2 by decide) h
    obtain ⟨b₂, bs', rfl, hlow', hhigh', rfl, hps⟩ := complete_of_char rfl h
    have hlow : (if b.toNat = 0xE0 then 0xA0 else 0x80) ≤ b₁.toNat := by
      simpa only [apply_ite UInt8.toNat, UInt8.reduceToNat] using hlow
    have hhigh : b₁.toNat ≤ if b.toNat = 0xED then 0x9F else 0xBF := by
      simpa only [apply_ite UInt8.toNat, UInt8.reduceToNat] using hhigh
    exact ⟨bs', by rw [encodeChar_three (by omega) hthree hlow hhigh hlow' hhigh']; rfl, hps⟩
  · rw [piecesFrom_sequence (start_four (by omega) (by omega))] at h
    obtain ⟨b₁, bs', rfl, hlow, hhigh, h⟩ := continue_of_char (show 1 < 3 by decide) h
    obtain ⟨b₂, bs', rfl, hlow₂, hhigh₂, h⟩ := continue_of_char (show 1 < 2 by decide) h
    obtain ⟨b₃, bs', rfl, hlow₃, hhigh₃, rfl, hps⟩ := complete_of_char rfl h
    have hlow : (if b.toNat = 0xF0 then 0x90 else 0x80) ≤ b₁.toNat := by
      simpa only [apply_ite UInt8.toNat, UInt8.reduceToNat] using hlow
    have hhigh : b₁.toNat ≤ if b.toNat = 0xF4 then 0x8F else 0xBF := by
      simpa only [apply_ite UInt8.toNat, UInt8.reduceToNat] using hhigh
    refine ⟨bs', ?_, hps⟩
    rw [encodeChar_four (by omega) (by omega) hlow hhigh hlow₂ hhigh₂ hlow₃ hhigh₃]
    rfl

theorem chars_of_textOf {position : Nat} {ps : List Piece} {t : Text}
    (h : textOf position ps = .ok t) : ps = t.map .char := by
  induction ps generalizing position t with
  | nil =>
    obtain rfl := Except.ok.inj h
    rfl
  | cons p ps ih =>
    cases p with
    | malformed first length reason => cases h
    | char c =>
      rw [textOf] at h
      cases hrest : textOf (position + c.utf8Size) ps with
      | error fault =>
        rw [hrest] at h
        cases h
      | ok t' =>
        rw [hrest] at h
        obtain rfl := Except.ok.inj h
        exact congrArg (Piece.char c :: ·) (ih hrest)

/-- No bytes are lost. -/
theorem piecesFrom_ne_nil {open? : Option Sequence} (h : open? ≠ none ∨ bs ≠ []) :
    piecesFrom open? bs ≠ [] := by
  induction bs generalizing open? with
  | nil =>
    cases open? with
    | none => simp at h
    | some q => exact List.cons_ne_nil _ _
  | cons b bs ih =>
    have hrest (x : Piece ⊕ Sequence) : (match x with
        | .inl p => p :: piecesFrom none bs
        | .inr q => piecesFrom (some q) bs) ≠ [] := by
      cases x with
      | inl p => exact List.cons_ne_nil _ _
      | inr q => exact ih (.inl (Option.some_ne_none q))
    cases open? with
    | none =>
      rw [piecesFrom]
      exact hrest (start b)
    | some q =>
      rw [piecesFrom]
      split
      · exact hrest (q.push b)
      · exact List.cons_ne_nil _ _

theorem encode_of_chars {t : Text} (h : pieces bs = t.map .char) : bs = encode t := by
  induction t generalizing bs with
  | nil =>
    cases bs with
    | nil => rfl
    | cons b bs => exact absurd h (piecesFrom_ne_nil (.inr (List.cons_ne_nil _ _)))
  | cons c t ih =>
    cases bs with
    | nil => cases h
    | cons b bs =>
      obtain ⟨bs', hbs, hrest⟩ := encodeChar_of_char h
      rw [hbs, ih hrest]
      rfl

/-- **Main.** Bytes are read as a text if and only if they are its bytes. -/
theorem decode_eq_ok_iff {t : Text} : decode bs = .ok t ↔ bs = encode t :=
  ⟨fun h => encode_of_chars (chars_of_textOf h), fun h => h ▸ decode_encode t⟩

end SqlInterchange.Utf8
