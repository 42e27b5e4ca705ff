import Mathlib.Algebra.Order.Field.Power
import Mathlib.Data.Int.Log
import Mathlib.Data.List.TakeWhile
import Mathlib.Data.Rat.Floor
import Mathlib.Tactic.FieldSimp
import Mathlib.Tactic.Linarith
import Mathlib.Tactic.NormNum
import Mathlib.Tactic.Positivity
import SqlInterchange.Number.Binary64
import SqlInterchange.Proofs.Number.Decimal
import SqlInterchange.Proofs.Text.Trim

/-! # Shortest decimals read back

The magnitude nearest to a quotient depends on the quotient alone (`nearest_congr`), so the zeros
at the end of a mantissa may be moved into the exponent (`placeOfDecimal_mul_pow`).  A magnitude is
the one nearest to its own exact value (`nearest_exact`).  Together they say that the decimal
chosen to write a magnitude reads back as it (`placeOfDecimal_shortest`): a short decimal because
that is what it was chosen for, and the exact value behind the short ones because it is exact.
-/
namespace SqlInterchange.Binary64

/-! ## Quotients -/

/-- An integer power as a quotient of two natural ones, of which one is one. -/
theorem zpow_eq_div (b : ℚ) (k : ℤ) : b ^ k = b ^ k.toNat / b ^ (-k).toNat := by
  obtain ⟨n, rfl | rfl⟩ := k.eq_nat_or_neg
  · simp
  · simp

theorem roundDiv_mul {c : ℕ} (hc : 0 < c) (num den : ℕ) :
    roundDiv (c * num) (c * den) = roundDiv num den := by
  have hbelow (a b : ℕ) : 2 * (c * a) < c * b ↔ 2 * a < b := by
    rw [Nat.mul_left_comm, Nat.mul_lt_mul_left hc]
  have habove (a b : ℕ) : c * a < 2 * (c * b) ↔ a < 2 * b := by
    rw [Nat.mul_left_comm, Nat.mul_lt_mul_left hc]
  simp only [roundDiv, Nat.mul_div_mul_left _ _ hc, Nat.mul_mod_mul_left, hbelow, habove]

/-- A rounded quotient depends on the quotient alone. -/
theorem roundDiv_congr {num den num' den' : ℕ} (hden : 0 < den) (hden' : 0 < den')
    (h : num * den' = num' * den) : roundDiv num den = roundDiv num' den' :=
  calc roundDiv num den = roundDiv (den' * num) (den' * den) := (roundDiv_mul hden' ..).symm
    _ = roundDiv (den * num') (den * den') := by
      rw [Nat.mul_comm den' num, h, Nat.mul_comm num' den, Nat.mul_comm den' den]
    _ = roundDiv num' den' := roundDiv_mul hden ..

theorem roundDiv_exact {den : ℕ} (hden : 0 < den) (n : ℕ) : roundDiv (n * den) den = n := by
  simp [roundDiv, Nat.mul_div_cancel _ hden, hden]

theorem roundDiv_cases (num den : ℕ) :
    roundDiv num den = num / den ∨ roundDiv num den = num / den + 1 := by
  unfold roundDiv
  simp only
  split
  · exact .inl rfl
  split
  · exact .inr rfl
  split
  · exact .inl rfl
  · exact .inr rfl

theorem two_zpow_le_iff {q : ℚ} (hq : 0 < q) (e : ℤ) : (2 : ℚ) ^ e ≤ q ↔ e ≤ Int.log 2 q := by
  simpa using Int.zpow_le_iff_le_log (b := 2) (x := e) one_lt_two hq

theorem lt_two_zpow_iff {q : ℚ} (hq : 0 < q) (e : ℤ) : q < (2 : ℚ) ^ e ↔ Int.log 2 q < e := by
  simpa using Int.lt_zpow_iff_log_lt (b := 2) (x := e) one_lt_two hq

/-- Whether a power of two is at most a quotient is a comparison of natural numbers. -/
theorem zpow_le_div (num : ℕ) {den : ℕ} (hden : 0 < den) (e : ℤ) :
    (2 : ℚ) ^ e ≤ (num : ℚ) / den ↔ den * Nat.pow 2 e.toNat ≤ num * Nat.pow 2 (-e).toNat := by
  have hden' : (0 : ℚ) < den := by exact_mod_cast hden
  have hpow : (0 : ℚ) < 2 ^ (-e).toNat := by positivity
  rw [zpow_eq_div, div_le_div_iff₀ hpow hden', mul_comm, Nat.pow_eq, Nat.pow_eq]
  exact_mod_cast Iff.rfl

theorem floorLog2_eq {num den : ℕ} (hnum : num ≠ 0) (hden : den ≠ 0) :
    floorLog2 num den = Int.log 2 ((num : ℚ) / den) := by
  have hnum' : (0 : ℚ) < num := by exact_mod_cast Nat.pos_of_ne_zero hnum
  have hden' : (0 : ℚ) < den := by exact_mod_cast Nat.pos_of_ne_zero hden
  have hq : (0 : ℚ) < num / den := by positivity
  have hnumlow : (2 : ℚ) ^ (num.log2 : ℤ) ≤ num := by exact_mod_cast Nat.log2_self_le hnum
  have hnumhigh : (num : ℚ) < 2 ^ (num.log2 + 1 : ℤ) := by exact_mod_cast Nat.lt_log2_self
  have hdenlow : (2 : ℚ) ^ (den.log2 : ℤ) ≤ den := by exact_mod_cast Nat.log2_self_le hden
  have hdenhigh : (den : ℚ) < 2 ^ (den.log2 + 1 : ℤ) := by exact_mod_cast Nat.lt_log2_self
  -- the logarithms of both parts leave two possibilities
  have hlow : (num.log2 : ℤ) - den.log2 - 1 ≤ Int.log 2 ((num : ℚ) / den) := by
    rw [← two_zpow_le_iff hq, le_div_iff₀ hden']
    calc (2 : ℚ) ^ ((num.log2 : ℤ) - den.log2 - 1) * den
        ≤ 2 ^ ((num.log2 : ℤ) - den.log2 - 1) * 2 ^ (den.log2 + 1 : ℤ) := by gcongr
      _ = 2 ^ (num.log2 : ℤ) := by
        rw [← zpow_add₀ (by norm_num)]
        congr 1
        omega
      _ ≤ num := hnumlow
  have hhigh : Int.log 2 ((num : ℚ) / den) < (num.log2 : ℤ) - den.log2 + 1 := by
    rw [← lt_two_zpow_iff hq, div_lt_iff₀ hden']
    calc (num : ℚ) < 2 ^ (num.log2 + 1 : ℤ) := hnumhigh
      _ = 2 ^ ((num.log2 : ℤ) - den.log2 + 1) * 2 ^ (den.log2 : ℤ) := by
        rw [← zpow_add₀ (by norm_num)]
        congr 1
        omega
      _ ≤ 2 ^ ((num.log2 : ℤ) - den.log2 + 1) * den := by gcongr
  -- and the comparison tells them apart
  have hmiddle := (zpow_le_div num (Nat.pos_of_ne_zero hden) _).symm.trans
    (two_zpow_le_iff hq (num.log2 - den.log2))
  rw [floorLog2]
  split
  · next h =>
    have hat := hmiddle.mp h
    omega
  · next h =>
    have hat := mt hmiddle.mpr h
    omega

/-! ## The nearest magnitude -/

/-- The nearest magnitude depends on the quotient alone. -/
theorem nearest_congr {num den num' den' : ℕ} (hden : 0 < den) (hden' : 0 < den')
    (h : num * den' = num' * den) : nearest num den = nearest num' den' := by
  by_cases hnum : num = 0
  · have hnum' : num' = 0 := by
      rw [hnum, Nat.zero_mul] at h
      exact (Nat.mul_eq_zero.mp h.symm).resolve_right (Nat.ne_of_gt hden)
    rw [nearest, nearest, if_pos hnum, if_pos hnum']
  have hnum' : num' ≠ 0 := by
    rintro rfl
    rw [Nat.zero_mul] at h
    exact hnum ((Nat.mul_eq_zero.mp h).resolve_right (Nat.ne_of_gt hden'))
  have hquotient : (num : ℚ) / den = num' / den' := by
    rw [div_eq_div_iff (by exact_mod_cast Nat.ne_of_gt hden)
      (by exact_mod_cast Nat.ne_of_gt hden')]
    exact_mod_cast h
  have hlog : floorLog2 num den = floorLog2 num' den' := by
    rw [floorLog2_eq hnum (Nat.ne_of_gt hden), floorLog2_eq hnum' (Nat.ne_of_gt hden'), hquotient]
  simp only [nearest, hnum, hnum', if_false, hlog]
  congr 1
  refine roundDiv_congr (Nat.mul_pos hden (Nat.pow_pos (by decide)))
    (Nat.mul_pos hden' (Nat.pow_pos (by decide))) ?_
  rw [Nat.mul_mul_mul_comm, h, Nat.mul_mul_mul_comm]

/-- A significand with the exponent that `nearest` finds for it counts from the first magnitude
with that exponent. -/
theorem nearest_of_exponent {m : ℕ} {k : ℤ} (hm : m ≠ 0)
    (hk : max (-1074) (Int.log 2 ((m : ℚ) * 2 ^ k) - 52) = k) :
    nearest (m * 2 ^ k.toNat) (2 ^ (-k).toNat) = (k + 1074).toNat * binade + m := by
  have hden : 0 < 2 ^ (-k).toNat := Nat.pow_pos (by decide)
  have hnum : m * 2 ^ k.toNat ≠ 0 := Nat.mul_ne_zero hm (Nat.ne_of_gt (Nat.pow_pos (by decide)))
  have hquotient : ((m * 2 ^ k.toNat : ℕ) : ℚ) / (2 ^ (-k).toNat : ℕ) = m * 2 ^ k := by
    rw [zpow_eq_div 2 k]
    push_cast
    rw [mul_div_assoc]
  rw [nearest, if_neg hnum, floorLog2_eq hnum (Nat.ne_of_gt hden), hquotient]
  simp only [hk, Nat.pow_eq]
  rw [Nat.mul_assoc, Nat.mul_comm (2 ^ k.toNat), roundDiv_exact]
  exact Nat.mul_pos hden (Nat.pow_pos (by decide))

theorem cast_binade : (binade : ℚ) = 2 ^ (52 : ℤ) := by norm_num [binade]

/-- **A magnitude is the one nearest to its own value.** -/
theorem nearest_exact (i : ℕ) :
    nearest (significand i * 2 ^ (scale i).toNat) (2 ^ (-scale i).toNat) = i := by
  by_cases hzero : i = 0
  · rw [hzero]
    rfl
  have hpos (k : ℤ) : (0 : ℚ) < 2 ^ k := by positivity
  by_cases hi : i < binade
  · -- the multiples of the smallest magnitude
    have hsignificand : significand i = i := if_pos hi
    have hscale : scale i = -1074 := if_pos hi
    have hvalue : (0 : ℚ) < i * 2 ^ (-1074 : ℤ) :=
      mul_pos (by exact_mod_cast Nat.pos_of_ne_zero hzero) (hpos _)
    have hlog : Int.log 2 ((i : ℚ) * 2 ^ (-1074 : ℤ)) < 52 + -1074 := by
      rw [← lt_two_zpow_iff hvalue, zpow_add₀ (by norm_num), ← cast_binade]
      exact mul_lt_mul_of_pos_right (by exact_mod_cast hi) (hpos _)
    rw [hsignificand, hscale, nearest_of_exponent hzero (by omega)]
    exact Nat.zero_add i
  · have hquot : 1 ≤ i / binade := (Nat.one_le_div_iff (by decide)).mpr (Nat.le_of_not_lt hi)
    have hrest : i % binade < binade := Nat.mod_lt i (by decide)
    have hsum : binade * (i / binade) + i % binade = i := Nat.div_add_mod i binade
    generalize hr : i % binade = r at hrest hsum
    generalize hq : i / binade = q at hquot hsum
    have hsignificand : significand i = binade + r := by rw [significand, if_neg hi, hr]
    have hscale : scale i = (q : ℤ) - 1075 := by rw [scale, if_neg hi, hq]
    have hm : binade + r ≠ 0 := by omega
    generalize hk : (q : ℤ) - 1075 = k at hscale
    have hvalue : (0 : ℚ) < (binade + r : ℕ) * 2 ^ k :=
      mul_pos (by exact_mod_cast Nat.pos_of_ne_zero hm) (hpos _)
    have hlow : 52 + k ≤ Int.log 2 (((binade + r : ℕ) : ℚ) * 2 ^ k) := by
      rw [← two_zpow_le_iff hvalue, zpow_add₀ (by norm_num), ← cast_binade]
      exact mul_le_mul_of_nonneg_right (by exact_mod_cast Nat.le_add_right ..) (hpos _).le
    have hhigh : Int.log 2 (((binade + r : ℕ) : ℚ) * 2 ^ k) < 1 + 52 + k := by
      rw [← lt_two_zpow_iff hvalue, zpow_add₀ (by norm_num), zpow_add₀ (by norm_num),
        ← cast_binade]
      refine mul_lt_mul_of_pos_right ?_ (hpos _)
      rw [zpow_one]
      exact_mod_cast (by omega : binade + r < 2 * binade)
    rw [hsignificand, hscale, nearest_of_exponent hm (by omega)]
    have hplace : (k + 1074).toNat = q - 1 := by omega
    rw [hplace, ← Nat.add_assoc, ← Nat.succ_mul, Nat.succ_eq_add_one, Nat.sub_add_cancel hquot,
      Nat.mul_comm, hsum]

/-! ## Decimals -/

theorem digitCount_mul_pow {m : ℕ} (hm : m ≠ 0) (j : ℕ) :
    digitCount (m * 10 ^ j) = digitCount m + j := by
  rw [digitCount, Decimal.digits_mul_pow hm, List.length_append, List.length_replicate]
  rfl

/-- Zeros at the end of a mantissa may be moved into the exponent. -/
theorem placeOfDecimal_mul_pow (m j : ℕ) (e : ℤ) :
    placeOfDecimal (m * 10 ^ j) e = placeOfDecimal m (e + j) := by
  by_cases hm : m = 0
  · rw [hm, Nat.zero_mul, placeOfDecimal, placeOfDecimal, if_pos rfl, if_pos rfl]
  have hm' : m * 10 ^ j ≠ 0 := Nat.mul_ne_zero hm (Nat.ne_of_gt (Nat.pow_pos (by decide)))
  have hcount : e + (digitCount (m * 10 ^ j) : ℤ) = e + j + digitCount m := by
    rw [digitCount_mul_pow hm]
    push_cast
    omega
  have hnearest : nearest (m * 10 ^ j * Nat.pow 10 e.toNat) (Nat.pow 10 (-e).toNat) =
      nearest (m * Nat.pow 10 (e + j).toNat) (Nat.pow 10 (-(e + j)).toNat) := by
    refine nearest_congr (Nat.pow_pos (by decide)) (Nat.pow_pos (by decide)) ?_
    have hexponents : j + e.toNat + (-(e + j)).toNat = (e + j).toNat + (-e).toNat := by omega
    simp only [Nat.pow_eq, Nat.mul_assoc, ← Nat.pow_add]
    rw [hexponents]
  simp only [placeOfDecimal, hm, hm', if_false, hcount, hnearest]

theorem significand_lt (i : ℕ) : significand i < 2 * binade := by
  have hrest : i % binade < binade := Nat.mod_lt i (by decide)
  unfold significand
  split
  · omega
  · omega

theorem eq_zero_of_significand {i : ℕ} (h : significand i = 0) : i = 0 := by
  have hbinade : 0 < binade := by decide
  unfold significand at h
  split at h
  · exact h
  · omega

theorem scale_bounds {i : ℕ} (hi : i < magnitudes) : -1074 ≤ scale i ∧ scale i ≤ 971 := by
  have hquot : i / binade < 0x7FF := Nat.div_lt_of_lt_mul (Nat.mul_comm .. ▸ hi)
  unfold scale
  split
  · omega
  · next h =>
    have hone : 1 ≤ i / binade := (Nat.one_le_div_iff (by decide)).mpr (Nat.le_of_not_lt h)
    omega

theorem two_pow_le_ten_pow {k n : ℕ} (h : k ≤ 12 * n) : 2 ^ k ≤ 10 ^ (4 * n) :=
  calc 2 ^ k ≤ 2 ^ (12 * n) := Nat.pow_le_pow_right (by decide) h
    _ = (2 ^ 12) ^ n := Nat.pow_mul ..
    _ ≤ (10 ^ 4) ^ n := Nat.pow_le_pow_left (by decide) n
    _ = 10 ^ (4 * n) := (Nat.pow_mul ..).symm

/-! ### The exact value

The exact value of a magnitude is neither so large nor so small as to be settled by its exponent.
The bounds are rough ones, with twelve powers of two for four powers of ten. -/

theorem digitCount_exact_le {m k n b : ℕ} (hm : m ≠ 0) (hm' : m < 2 ^ 53) (hk : 53 + k ≤ 12 * b) :
    digitCount (m * 2 ^ k * 5 ^ n) ≤ 4 * b + n := by
  have hne : m * 2 ^ k * 5 ^ n ≠ 0 :=
    Nat.mul_ne_zero (Nat.mul_ne_zero hm (Nat.ne_of_gt (Nat.pow_pos (by decide))))
      (Nat.ne_of_gt (Nat.pow_pos (by decide)))
  have hvalue : m * 2 ^ k < 10 ^ (4 * b) :=
    calc m * 2 ^ k < 2 ^ 53 * 2 ^ k := Nat.mul_lt_mul_of_pos_right hm' (Nat.pow_pos (by decide))
      _ = 2 ^ (53 + k) := (Nat.pow_add ..).symm
      _ ≤ 10 ^ (4 * b) := two_pow_le_ten_pow hk
  have hpower : 10 ^ digitCount (m * 2 ^ k * 5 ^ n) < 10 ^ (1 + (4 * b + n)) :=
    calc 10 ^ digitCount (m * 2 ^ k * 5 ^ n) ≤ 10 * (m * 2 ^ k * 5 ^ n) :=
        Decimal.pow_length_digits_le hne
      _ ≤ 10 * (m * 2 ^ k * 10 ^ n) :=
        Nat.mul_le_mul_left _ (Nat.mul_le_mul_left _ (Nat.pow_le_pow_left (by decide) n))
      _ < 10 * (10 ^ (4 * b) * 10 ^ n) :=
        Nat.mul_lt_mul_of_pos_left
          (Nat.mul_lt_mul_of_pos_right hvalue (Nat.pow_pos (by decide))) (by decide)
      _ = 10 ^ (1 + (4 * b + n)) := by rw [Nat.pow_add 10 1, Nat.pow_add, Nat.pow_one]
  have hlt := (Nat.pow_lt_pow_iff_right (by decide)).mp hpower
  omega

theorem le_digitCount_exact {m k n b : ℕ} (hm : m ≠ 0) (hn : n ≤ 12 * b) :
    n ≤ 4 * b + digitCount (m * 2 ^ k * 5 ^ n) := by
  have hpos : 0 < m * 2 ^ k := Nat.mul_pos (Nat.pos_of_ne_zero hm) (Nat.pow_pos (by decide))
  by_contra hsmall
  have hpower : 10 ^ (4 * b) * 5 ^ n < 2 ^ n * 5 ^ n :=
    calc 10 ^ (4 * b) * 5 ^ n ≤ 10 ^ (4 * b) * (m * 2 ^ k * 5 ^ n) :=
        Nat.mul_le_mul_left _ (Nat.le_mul_of_pos_left _ hpos)
      _ < 10 ^ (4 * b) * 10 ^ digitCount (m * 2 ^ k * 5 ^ n) :=
        Nat.mul_lt_mul_of_pos_left (Decimal.lt_pow_length_digits _) (Nat.pow_pos (by decide))
      _ = 10 ^ (4 * b + digitCount (m * 2 ^ k * 5 ^ n)) := (Nat.pow_add ..).symm
      _ ≤ 10 ^ n := Nat.pow_le_pow_right (by decide) (by omega)
      _ = 2 ^ n * 5 ^ n := by rw [← Nat.mul_pow]
  exact Nat.not_le_of_gt (Nat.lt_of_mul_lt_mul_right hpower) (two_pow_le_ten_pow hn)

/-- The exact value of a magnitude reads back as it. -/
theorem placeOfDecimal_exact {i : ℕ} (hi : i < magnitudes) :
    placeOfDecimal (significand i * Nat.pow 2 (scale i).toNat * Nat.pow 5 (-scale i).toNat)
      (-((-scale i).toNat : ℤ)) = i := by
  by_cases hm : significand i = 0
  · rw [hm, eq_zero_of_significand hm, Nat.zero_mul, Nat.zero_mul, placeOfDecimal, if_pos rfl]
  obtain ⟨hlow, hhigh⟩ := scale_bounds hi
  have hupper := digitCount_exact_le (k := (scale i).toNat) (n := (-scale i).toNat) (b := 86) hm
    (significand_lt i) (by omega)
  have hlower := le_digitCount_exact (k := (scale i).toNat) (n := (-scale i).toNat) (b := 100) hm
    (by omega)
  have hexact := nearest_exact i
  generalize (scale i).toNat = k at *
  generalize (-scale i).toNat = n at *
  have hne : significand i * 2 ^ k * 5 ^ n ≠ 0 :=
    Nat.mul_ne_zero (Nat.mul_ne_zero hm (Nat.ne_of_gt (Nat.pow_pos (by decide))))
      (Nat.ne_of_gt (Nat.pow_pos (by decide)))
  simp only [Nat.pow_eq]
  rw [placeOfDecimal, if_neg hne, if_neg (by omega), if_neg (by omega), Int.toNat_neg_natCast,
    Int.neg_neg, Int.toNat_natCast, Nat.pow_eq, Nat.pow_eq, Nat.pow_zero, Nat.mul_one]
  refine (nearest_congr (Nat.pow_pos (by decide)) (Nat.pow_pos (by decide)) ?_).trans hexact
  rw [Nat.mul_assoc, Nat.mul_comm (5 ^ n), ← Nat.mul_pow]

/-! ## The shortest decimal -/

theorem placeOfDecimal_neighbour? {i num den m : ℕ} {e : ℤ}
    (h : neighbour? i num den e = some m) : placeOfDecimal m e = i := by
  simp only [neighbour?, beq_iff_eq, Bool.and_eq_true] at h
  split at h
  · next hboth =>
    rcases roundDiv_cases (num * Nat.pow 10 (-e).toNat) (den * Nat.pow 10 e.toNat) with hr | hr
    · rw [← Option.some.inj h, hr]
      exact hboth.1
    · rw [← Option.some.inj h, hr]
      exact hboth.2
  split at h
  · next hbelow => exact Option.some.inj h ▸ hbelow
  split at h
  · next habove => exact Option.some.inj h ▸ habove
  · cases h

theorem placeOfDecimal_shortestFrom {i num den count fuel : ℕ} {top : ℤ} {r : ℕ × ℤ}
    (h : shortestFrom i num den top count fuel = some r) : placeOfDecimal r.1 r.2 = i := by
  induction fuel generalizing count with
  | zero => cases h
  | succ fuel ih =>
    simp only [shortestFrom] at h
    split at h
    · next hm =>
      rw [← Option.some.inj h]
      exact placeOfDecimal_neighbour? hm
    · exact ih h

/-- **Main.** The shortest decimal of a magnitude reads back as it. -/
theorem placeOfDecimal_shortest {i : ℕ} (hi : i < magnitudes) :
    placeOfDecimal (shortest i).1 (shortest i).2 = i := by
  simp only [shortest]
  split
  · next hm =>
    rw [eq_zero_of_significand hm]
    rfl
  · cases hr : shortestFrom i (significand i * Nat.pow 2 (scale i).toNat)
      (Nat.pow 2 (-scale i).toNat) (floorLog10 (significand i * Nat.pow 2 (scale i).toNat)
        (Nat.pow 2 (-scale i).toNat)) 1 17 with
    | none => exact placeOfDecimal_exact hi
    | some r => exact placeOfDecimal_shortestFrom hr

/-! ## The digits that are written -/

/-- Digits with a first one that is no zero, unless zero is the only one and has weight one. -/
structure Normalized (ds : Text) (top : ℤ) : Prop where
  ne_nil : ds ≠ []
  digits : ∀ c ∈ ds, c.isDigit
  leading : ds.head? = some '0' → ds = ['0'] ∧ top = 0

theorem exists_zeros (ds : Text) :
    ∃ k, ds = Text.dropEndWhile (· == '0') ds ++ List.replicate k '0' := by
  obtain ⟨zeros, hds, hzeros⟩ := Text.exists_dropped (· == '0') ds
  have hall : zeros = List.replicate zeros.length '0' :=
    List.eq_replicate_of_mem fun c hc => eq_of_beq (hzeros c hc)
  exact ⟨zeros.length, hall ▸ hds⟩

/-- The digits of a decimal without the zeros at its end are normalized, and stand for the same
decimal. -/
theorem normalize_spec (m : ℕ) (e : ℤ) :
    Normalized (normalize m e).1 (normalize m e).2 ∧
      placeOfDecimal (Decimal.value (normalize m e).1)
        ((normalize m e).2 + 1 - (normalize m e).1.length) = placeOfDecimal m e := by
  by_cases hm : m = 0
  · have hzero : normalize 0 e = (['0'], 0) := by
      rw [normalize, Decimal.digits_of_lt (by decide)]
      rfl
    rw [hm, hzero]
    exact ⟨⟨by decide, List.forall_mem_singleton.mpr rfl, fun _ => ⟨rfl, rfl⟩⟩, rfl⟩
  obtain ⟨k, hk⟩ := exists_zeros (Decimal.digits m)
  generalize hkept : Text.dropEndWhile (· == '0') (Decimal.digits m) = kept at hk
  have hfirst := Decimal.head?_digits hm
  have hdigits : ∀ c ∈ Decimal.digits m, c.isDigit := Decimal.isDigit_of_mem_digits
  have hvalue := Decimal.value_digits m
  have hne : kept ≠ [] := by
    rintro rfl
    cases k with
    | zero => exact Decimal.digits_ne_nil m hk
    | succ k => exact hfirst (by rw [hk]; rfl)
  have hnormalize : normalize m e = (kept, e + (kept.length + k : ℕ) - 1) := by
    have hlength : (Decimal.digits m).length = kept.length + k := by rw [hk]; simp
    simp [normalize, hkept, hne, hlength]
  rw [hk] at hfirst hdigits hvalue
  rw [Decimal.value_append, Decimal.value_replicate_zero, List.length_replicate] at hvalue
  rw [List.head?_append_of_ne_nil _ hne] at hfirst
  rw [hnormalize]
  refine ⟨⟨hne, fun c hc => hdigits c (List.mem_append_left _ hc), fun h => absurd h hfirst⟩, ?_⟩
  have hexponent : e + (kept.length + k : ℕ) - 1 + 1 - kept.length = e + k := by omega
  rw [hexponent, ← placeOfDecimal_mul_pow, ← hvalue, Nat.add_zero]

end SqlInterchange.Binary64
