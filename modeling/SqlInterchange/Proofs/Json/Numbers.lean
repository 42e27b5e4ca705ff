import SqlInterchange.Json.Reader
import SqlInterchange.Json.Writer
import SqlInterchange.Proofs.Number.Binary64

/-! # Numbers read back

A number as it is written is read as the number: an integer if it has no more digits than are
read (`scalar_writeInt`), and every floating point number (`scalar_writeFloat`).  A number is read
as far as it goes, so what is behind it must not go on with it; the end of the text, a comma, a
bracket and a line break do not (`Ends`).
-/
namespace SqlInterchange.Json

/-- Whether no number goes on with a text. -/
def Ends (rest : Text) : Prop :=
  ∀ c ∈ rest.head?, c.isDigit = false ∧ c ≠ '.' ∧ c ≠ 'e' ∧ c ≠ 'E'

/-- Whether no run of digits goes on with a text. -/
def EndsDigits (rest : Text) : Prop := ∀ c ∈ rest.head?, c.isDigit = false

theorem Ends.digits {rest : Text} (h : Ends rest) : EndsDigits rest := fun c hc => (h c hc).1

/-- Digits that stand before the point: zero alone, or digits of which the first is no zero. -/
def IsWhole (ws : Text) : Prop :=
  ws ≠ [] ∧ (∀ c ∈ ws, c.isDigit) ∧ (ws.head? = some '0' → ws = ['0'])

variable {ws ds rest : Text}

/-! ## The parts of a number -/

theorem digitRun_append (hds : ∀ c ∈ ds, c.isDigit) (hrest : EndsDigits rest) :
    digitRun (ds ++ rest) = (ds, rest) := by
  have htake : rest.takeWhile Char.isDigit = [] := by
    cases rest with
    | nil => rfl
    | cons c rest => exact List.takeWhile_cons_of_neg (by simpa using hrest c rfl)
  have hdrop : rest.dropWhile Char.isDigit = rest := by
    cases rest with
    | nil => rfl
    | cons c rest => exact List.dropWhile_cons_of_neg (by simpa using hrest c rfl)
  rw [digitRun, List.takeWhile_append_of_pos hds, List.dropWhile_append_of_pos hds, htake, hdrop,
    List.append_nil]

theorem wholePart?_append (hws : IsWhole ws) (hrest : EndsDigits rest) :
    wholePart? (ws ++ rest) = some (ws, rest) := by
  obtain ⟨hne, hdigits, hzero⟩ := hws
  obtain ⟨c, cs, rfl⟩ := List.exists_cons_of_ne_nil hne
  by_cases hc : c = '0'
  · have hcs : cs = [] := by simpa [hc] using hzero (by rw [hc]; rfl)
    rw [hc, hcs]
    rfl
  · have hrun := digitRun_append hdigits hrest
    rw [List.cons_append] at hrun ⊢
    rw [wholePart?, if_neg hc, if_pos (hdigits c (List.mem_cons_self ..)), hrun]

theorem fraction?_eq_none (h : rest.head? ≠ some '.') : fraction? rest = none := by
  unfold fraction?
  split
  · exact absurd rfl h
  · rfl

theorem fraction?_append (hne : ds ≠ []) (hds : ∀ c ∈ ds, c.isDigit) (hrest : EndsDigits rest) :
    fraction? ('.' :: (ds ++ rest)) = some (ds, rest) := by
  obtain ⟨d, ds, rfl⟩ := List.exists_cons_of_ne_nil hne
  have hrun := digitRun_append hds hrest
  rw [List.cons_append] at hrun ⊢
  rw [fraction?, if_pos (hds d (List.mem_cons_self ..)), hrun]

theorem exponent?_eq_none (h : ∀ c ∈ rest.head?, c ≠ 'e' ∧ c ≠ 'E') : exponent? rest = none := by
  cases rest with
  | nil => rfl
  | cons c rest =>
    obtain ⟨he, he'⟩ := h c rfl
    simp [exponent?, he, he']

/-- An exponent goes on neither with digits nor with a point. -/
theorem goes_of_exponent {t : Text} {result : Int × Text} (h : exponent? t = some result) :
    EndsDigits t ∧ t.head? ≠ some '.' := by
  cases t with
  | nil => cases h
  | cons c cs =>
    by_cases hc : c = 'e' ∨ c = 'E'
    · rcases hc with rfl | rfl
      · exact ⟨by rintro _ ⟨⟩; rfl, by simp⟩
      · exact ⟨by rintro _ ⟨⟩; rfl, by simp⟩
    · obtain ⟨he, he'⟩ := not_or.mp hc
      simp [exponent?, he, he'] at h

theorem signedDigits?_append {sign : Char} (hsign : sign = '-' ∨ sign = '+') (hne : ds ≠ [])
    (hds : ∀ c ∈ ds, c.isDigit) (hrest : EndsDigits rest) :
    signedDigits? (sign :: (ds ++ rest)) =
      some (if sign = '-' then -(Decimal.value ds : Int) else Decimal.value ds, rest) := by
  rcases hsign with rfl | rfl
  · simp [signedDigits?, digitRun_append hds hrest, hne]
  · simp [signedDigits?, digitRun_append hds hrest, hne]

/-- The digits of an exponent, at least two. -/
theorem exponentText_eq (e : Int) : ∃ ds, ds ≠ [] ∧ (∀ c ∈ ds, c.isDigit) ∧
    Decimal.value ds = e.natAbs ∧
    Binary64.exponentText e = (if e < 0 then '-' else '+') :: ds := by
  have hdigits : ∀ c ∈ Decimal.digits e.natAbs, c.isDigit := Decimal.isDigit_of_mem_digits
  by_cases h : (Decimal.digits e.natAbs).length < 2
  · refine ⟨'0' :: Decimal.digits e.natAbs, List.cons_ne_nil _ _, ?_, ?_, ?_⟩
    · exact List.forall_mem_cons.mpr ⟨rfl, hdigits⟩
    · exact Decimal.value_digits e.natAbs
    · simp only [Binary64.exponentText, if_pos h]
  · refine ⟨Decimal.digits e.natAbs, Decimal.digits_ne_nil _, hdigits, ?_, ?_⟩
    · exact Decimal.value_digits e.natAbs
    · simp only [Binary64.exponentText, if_neg h]

theorem exponent?_exponentText (e : Int) (hrest : EndsDigits rest) :
    exponent? ('e' :: (Binary64.exponentText e ++ rest)) = some (e, rest) := by
  obtain ⟨ds, hne, hds, hvalue, htext⟩ := exponentText_eq e
  rw [htext, exponent?, if_pos (by decide), List.cons_append]
  by_cases h : e < 0
  · rw [if_pos h, signedDigits?_append (.inl rfl) hne hds hrest, if_pos rfl, hvalue]
    congr 2
    omega
  · rw [if_neg h, signedDigits?_append (.inr rfl) hne hds hrest, if_neg (by decide), hvalue]
    congr 2
    omega

/-! ## Numbers without their sign -/

variable (negative : Bool)

theorem unsigned?_integer (hws : IsWhole ws) (hlength : ws.length ≤ maxDigits)
    (hrest : Ends rest) : unsigned? negative (ws ++ rest) = some (.ok
      (.int (if negative then -(Decimal.value ws : Int) else Decimal.value ws), rest)) := by
  have hfraction : fraction? rest = none :=
    fraction?_eq_none fun h => (hrest '.' h).2.1 rfl
  have hexponent : exponent? rest = none := exponent?_eq_none fun c hc => (hrest c hc).2.2
  simp [unsigned?, wholePart?_append hws hrest.digits, hfraction, hexponent, Nat.not_lt.mpr hlength]

theorem unsigned?_fraction (hws : IsWhole ws) (hne : ds ≠ []) (hds : ∀ c ∈ ds, c.isDigit)
    (hrest : Ends rest) : unsigned? negative (ws ++ '.' :: (ds ++ rest)) =
      some (.ok (.float (.ofDecimal negative (Decimal.value (ws ++ ds)) (-(ds.length : Int))),
        rest)) := by
  have hpoint : EndsDigits ('.' :: (ds ++ rest)) := by
    rintro c ⟨⟩
    rfl
  have hexponent : exponent? rest = none := exponent?_eq_none fun c hc => (hrest c hc).2.2
  simp [unsigned?, wholePart?_append hws hpoint, fraction?_append hne hds hrest.digits, hexponent]

theorem unsigned?_exponent (hws : IsWhole ws) {t : Text} {e : Int}
    (h : exponent? t = some (e, rest)) : unsigned? negative (ws ++ t) =
      some (.ok (.float (.ofDecimal negative (Decimal.value ws) e), rest)) := by
  obtain ⟨hmark, hpoint⟩ := goes_of_exponent h
  simp [unsigned?, wholePart?_append hws hmark, fraction?_eq_none hpoint, h]

theorem unsigned?_fraction_exponent (hws : IsWhole ws) (hne : ds ≠ [])
    (hds : ∀ c ∈ ds, c.isDigit) {t : Text} {e : Int} (h : exponent? t = some (e, rest)) :
    unsigned? negative (ws ++ '.' :: (ds ++ t)) =
      some (.ok (.float (.ofDecimal negative (Decimal.value (ws ++ ds)) (e - ds.length)),
        rest)) := by
  have hpoint : EndsDigits ('.' :: (ds ++ t)) := by
    rintro c ⟨⟩
    rfl
  have hmark := (goes_of_exponent h).1
  simp [unsigned?, wholePart?_append hws hpoint, fraction?_append hne hds hmark, h]

theorem isWhole_singleton {d : Char} (hd : d.isDigit) : IsWhole [d] :=
  ⟨List.cons_ne_nil _ _, by simpa using hd, fun h => by simpa using h⟩

variable {top : Int}

/-- One digit before the point, and an exponent. -/
theorem unsigned?_scientific (h : Binary64.Normalized ds top) (hrest : Ends rest) :
    unsigned? negative (ds.take 1 ++ (if ds.length = 1 then [] else '.' :: ds.drop 1) ++
        'e' :: Binary64.exponentText top ++ rest) =
      some (.ok (.float (.ofDecimal negative (Decimal.value ds) (top + 1 - ds.length)),
        rest)) := by
  obtain ⟨d, tail, rfl⟩ := List.exists_cons_of_ne_nil h.ne_nil
  obtain ⟨hd, htail⟩ := List.forall_mem_cons.mp h.digits
  have hexponent : top - tail.length = top + 1 - (d :: tail).length := by
    rw [List.length_cons]
    omega
  by_cases hone : tail = []
  · rw [← hexponent, hone]
    have hread := unsigned?_exponent negative (isWhole_singleton hd)
      (exponent?_exponentText top hrest.digits)
    simpa using hread
  · rw [← hexponent]
    have hread := unsigned?_fraction_exponent negative (isWhole_singleton hd) hone htail
      (exponent?_exponentText top hrest.digits)
    simpa [hone] using hread

/-- Zeros between the point and the digits. -/
theorem unsigned?_small (h : Binary64.Normalized ds top) (htop : top < 0) (hrest : Ends rest) :
    unsigned? negative ('0' :: '.' :: (List.replicate (-top - 1).toNat '0' ++ ds) ++ rest) =
      some (.ok (.float (.ofDecimal negative (Decimal.value ds) (top + 1 - ds.length)),
        rest)) := by
  have hdigits : ∀ c ∈ List.replicate (-top - 1).toNat '0' ++ ds, c.isDigit := by
    intro c hc
    rcases List.mem_append.mp hc with hc | hc
    · rw [List.eq_of_mem_replicate hc]
      rfl
    · exact h.digits c hc
  have hread := unsigned?_fraction negative (isWhole_singleton (d := '0') rfl)
    (List.append_ne_nil_of_right_ne_nil _ h.ne_nil) hdigits hrest
  have hvalue : Decimal.value (['0'] ++ (List.replicate (-top - 1).toNat '0' ++ ds)) =
      Decimal.value ds := by
    rw [Decimal.value_append, Decimal.value_append, Decimal.value_replicate_zero]
    simp [Decimal.value, Decimal.valueAfter, Decimal.digitValue]
  have hexponent : -((List.replicate (-top - 1).toNat '0' ++ ds).length : Int) =
      top + 1 - ds.length := by
    rw [List.length_append, List.length_replicate]
    omega
  rw [hvalue, hexponent] at hread
  simpa using hread

/-- Zeros behind the digits, and one behind the point. -/
theorem unsigned?_large (h : Binary64.Normalized ds top) (htop : 0 ≤ top)
    (hlength : ds.length ≤ (top + 1).toNat) (hrest : Ends rest) :
    ∃ m e, unsigned? negative (ds ++ List.replicate ((top + 1).toNat - ds.length) '0' ++
        ['.', '0'] ++ rest) = some (.ok (.float (.ofDecimal negative m e), rest)) ∧
      Binary64.placeOfDecimal m e =
        Binary64.placeOfDecimal (Decimal.value ds) (top + 1 - ds.length) := by
  generalize hk : (top + 1).toNat - ds.length = k
  have hwhole : IsWhole (ds ++ List.replicate k '0') := by
    refine ⟨List.append_ne_nil_of_left_ne_nil h.ne_nil _, ?_, ?_⟩
    · intro c hc
      rcases List.mem_append.mp hc with hc | hc
      · exact h.digits c hc
      · rw [List.eq_of_mem_replicate hc]
        rfl
    · intro hzero
      rw [List.head?_append_of_ne_nil _ h.ne_nil] at hzero
      obtain ⟨rfl, rfl⟩ := h.leading hzero
      rw [← hk]
      rfl
  have hread := unsigned?_fraction negative hwhole (List.cons_ne_nil '0' [])
    (List.forall_mem_singleton.mpr rfl) hrest
  refine ⟨Decimal.value (ds ++ List.replicate k '0' ++ ['0']), -1, by simpa using hread, ?_⟩
  have hvalue : Decimal.value (ds ++ List.replicate k '0' ++ ['0']) =
      Decimal.value ds * 10 ^ (k + 1) := by
    rw [List.append_assoc, ← List.replicate_succ', Decimal.value_append,
      Decimal.value_replicate_zero, List.length_replicate, Nat.add_zero]
  have hexponent : -1 + ((k + 1 : Nat) : Int) = top + 1 - ds.length := by omega
  rw [hvalue, Binary64.placeOfDecimal_mul_pow, hexponent]

/-- The point between the digits. -/
theorem unsigned?_between (h : Binary64.Normalized ds top) (htop : 0 ≤ top)
    (hlength : (top + 1).toNat < ds.length) (hrest : Ends rest) :
    unsigned? negative (ds.take (top + 1).toNat ++ '.' :: ds.drop (top + 1).toNat ++ rest) =
      some (.ok (.float (.ofDecimal negative (Decimal.value ds) (top + 1 - ds.length)),
        rest)) := by
  generalize hk : (top + 1).toNat = k at hlength
  have hwhole : IsWhole (ds.take k) := by
    refine ⟨?_, fun c hc => h.digits c (List.mem_of_mem_take hc), ?_⟩
    · intro hnil
      rcases List.take_eq_nil_iff.mp hnil with hnil | hnil
      · omega
      · exact h.ne_nil hnil
    · intro hzero
      rw [List.head?_take, if_neg (by omega)] at hzero
      obtain ⟨rfl, rfl⟩ := h.leading hzero
      rw [List.length_singleton] at hlength
      omega
  have hne : ds.drop k ≠ [] := by
    intro hnil
    have hall := List.drop_eq_nil_iff.mp hnil
    omega
  have hread := unsigned?_fraction negative hwhole hne
    (fun c hc => h.digits c (List.mem_of_mem_drop hc)) hrest
  have hexponent : -((ds.drop k).length : Int) = top + 1 - ds.length := by
    rw [List.length_drop]
    omega
  rw [List.take_append_drop, hexponent] at hread
  simpa using hread

/-- Every layout of digits is read as the number that they stand for. -/
theorem unsigned?_layout (h : Binary64.Normalized ds top) (hrest : Ends rest) :
    ∃ m e, unsigned? negative (Binary64.layout ds top ++ rest) =
        some (.ok (.float (.ofDecimal negative m e), rest)) ∧
      Binary64.placeOfDecimal m e =
        Binary64.placeOfDecimal (Decimal.value ds) (top + 1 - ds.length) := by
  unfold Binary64.layout
  split
  · exact ⟨_, _, unsigned?_scientific negative h hrest, rfl⟩
  split
  · next htop => exact ⟨_, _, unsigned?_small negative h htop hrest, rfl⟩
  · next htop =>
    dsimp only
    split
    · next hlength =>
      exact unsigned?_large negative h (Int.not_lt.mp htop) hlength hrest
    · next hlength =>
      exact ⟨_, _, unsigned?_between negative h (Int.not_lt.mp htop) (Nat.lt_of_not_le hlength)
        hrest, rfl⟩

/-! ## Scalars -/

/-- A text that starts with a digit is no word, also behind a minus sign. -/
theorem word?_of_digit {c : Char} (hc : c.isDigit) (t : Text) :
    word? (c :: t) = none ∧ word? ('-' :: c :: t) = none := by
  have hn : c ≠ 'n' := by rintro rfl; cases hc
  have ht : c ≠ 't' := by rintro rfl; cases hc
  have hf : c ≠ 'f' := by rintro rfl; cases hc
  have hN : c ≠ 'N' := by rintro rfl; cases hc
  have hI : c ≠ 'I' := by rintro rfl; cases hc
  have hminus : c ≠ '-' := by rintro rfl; cases hc
  constructor
  · simp [word?, words, Text.stripStart?, hn.symm, ht.symm, hf.symm, hN.symm, hI.symm,
      hminus.symm]
  · simp [word?, words, Text.stripStart?, hI.symm]

/-- What is read as a number without its sign starts with a digit. -/
theorem exists_digit_of_unsigned {t : Text} {result : Reading (Value × Text)}
    (h : unsigned? negative t = some result) : ∃ c cs, t = c :: cs ∧ c.isDigit := by
  cases t with
  | nil => cases h
  | cons c cs =>
    refine ⟨c, cs, rfl, ?_⟩
    by_contra hc
    have hzero : c ≠ '0' := by
      rintro rfl
      exact hc rfl
    have hwhole : wholePart? (c :: cs) = none := by rw [wholePart?, if_neg hzero, if_neg hc]
    simp [unsigned?, hwhole] at h

/-- A number is read from its sign and the rest. -/
theorem scalar_of_unsigned {t : Text} {result : Reading (Value × Text)}
    (h : unsigned? negative t = some result) :
    scalar ((if negative then ['-'] else []) ++ t) = result := by
  obtain ⟨c, cs, rfl, hc⟩ := exists_digit_of_unsigned negative h
  obtain ⟨hword, hword'⟩ := word?_of_digit hc cs
  cases negative with
  | true =>
    show scalar ('-' :: c :: cs) = result
    rw [scalar, hword', number?, h]
    rfl
  | false =>
    have hminus : c ≠ '-' := by rintro rfl; cases hc
    have hnumber : number? (c :: cs) = unsigned? false (c :: cs) := by
      unfold number?
      split
      · next heq => exact absurd (List.cons.inj heq).1 hminus
      · rfl
    show scalar (c :: cs) = result
    rw [scalar, hword, hnumber, h]
    rfl

theorem isWhole_digits (n : Nat) : IsWhole (Decimal.digits n) := by
  refine ⟨Decimal.digits_ne_nil n, Decimal.isDigit_of_mem_digits, fun hzero => ?_⟩
  by_cases hn : n = 0
  · rw [hn, Decimal.digits_of_lt (by decide)]
    rfl
  · exact absurd hzero (Decimal.head?_digits hn)

/-- **An integer is read as it was written**, if it has no more digits than are read. -/
theorem scalar_writeInt {n : Int} (hn : (Decimal.digits n.natAbs).length ≤ maxDigits)
    (hrest : Ends rest) : scalar (Decimal.ofInt n ++ rest) = .ok (.int n, rest) := by
  cases n with
  | ofNat m =>
    have hread := scalar_of_unsigned false
      (unsigned?_integer false (isWhole_digits m) hn hrest)
    rwa [Decimal.value_digits] at hread
  | negSucc m =>
    have hread := scalar_of_unsigned true
      (unsigned?_integer true (isWhole_digits (m + 1)) hn hrest)
    rwa [Decimal.value_digits] at hread

/-- **A floating point number is read as it was written.** -/
theorem scalar_writeFloat (x : Binary64) (hrest : Ends rest) :
    scalar (writeFloat x ++ rest) = .ok (.float x, rest) := by
  match x with
  | .nan => rfl
  | .infinite false => rfl
  | .infinite true => rfl
  | .finite negative i =>
    obtain ⟨hnormal, hplace⟩ := Binary64.normalize_spec (Binary64.shortest i).1
      (Binary64.shortest i).2
    obtain ⟨m, e, hread, hplace'⟩ := unsigned?_layout negative hnormal hrest
    have hvalue : Binary64.ofDecimal negative m e = .finite negative i := by
      rw [Binary64.ofDecimal, hplace', hplace, Binary64.placeOfDecimal_shortest i.isLt,
        Binary64.ofPlace, dif_pos i.isLt]
    rw [hvalue] at hread
    have hscalar := scalar_of_unsigned negative hread
    rwa [← List.append_assoc] at hscalar

end SqlInterchange.Json
