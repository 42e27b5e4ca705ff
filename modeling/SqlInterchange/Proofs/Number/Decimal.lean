import Mathlib.Tactic.Ring
import SqlInterchange.Number.Decimal

/-! # Decimal numerals read back

The digits of a number are digits, none of them a zero in front unless the number is zero, and
they stand for the number (`value_digits`).
-/
namespace SqlInterchange.Decimal

theorem digitValue_digitChar {d : Nat} (h : d < 10) : digitValue (digitChar d) = d := by
  have hall : ∀ d < 10, digitValue (digitChar d) = d := by decide
  exact hall d h

theorem isDigit_digitChar {d : Nat} (h : d < 10) : (digitChar d).isDigit := by
  have hall : ∀ d < 10, (digitChar d).isDigit := by decide
  exact hall d h

theorem digitChar_ne_zero {d : Nat} (h : d < 10) (hd : d ≠ 0) : digitChar d ≠ '0' := by
  have hall : ∀ d < 10, d ≠ 0 → digitChar d ≠ '0' := by decide
  exact hall d h hd

/-! ## The digits of a number -/

theorem digitsBefore_eq (rest : Text) (n : Nat) : digitsBefore rest n = digits n ++ rest := by
  -- for every text behind the digits, as each digit is put in front of it
  suffices h : ∀ s t, digitsBefore (s ++ t) n = digitsBefore s n ++ t from h [] rest
  induction n using Nat.strongRecOn with
  | ind n ih =>
    intro s t
    rw [digitsBefore.eq_def (s ++ t), digitsBefore.eq_def s]
    split
    · rfl
    · exact ih (n / 10) (by omega) (digitChar (n % 10) :: s) t

theorem digits_of_lt {n : Nat} (h : n < 10) : digits n = [digitChar n] := by
  rw [digits, digitsBefore, if_pos h]

theorem digits_of_le {n : Nat} (h : 10 ≤ n) :
    digits n = digits (n / 10) ++ [digitChar (n % 10)] := by
  rw [digits, digitsBefore, if_neg (by omega), digitsBefore_eq]

theorem digits_ne_nil (n : Nat) : digits n ≠ [] := by
  by_cases h : n < 10
  · simp [digits_of_lt h]
  · simp [digits_of_le (Nat.le_of_not_lt h)]

theorem isDigit_of_mem_digits {n : Nat} : ∀ c ∈ digits n, c.isDigit := by
  induction n using Nat.strongRecOn with
  | ind n ih =>
    intro c hc
    by_cases h : n < 10
    · rw [digits_of_lt h] at hc
      rw [List.mem_singleton.mp hc]
      exact isDigit_digitChar h
    · rw [digits_of_le (Nat.le_of_not_lt h)] at hc
      rcases List.mem_append.mp hc with hc | hc
      · exact ih (n / 10) (by omega) c hc
      · rw [List.mem_singleton.mp hc]
        exact isDigit_digitChar (Nat.mod_lt n (by decide))

/-- Only zero has a zero in front. -/
theorem head?_digits {n : Nat} (h : n ≠ 0) : (digits n).head? ≠ some '0' := by
  induction n using Nat.strongRecOn with
  | ind n ih =>
    by_cases hn : n < 10
    · simpa [digits_of_lt hn] using digitChar_ne_zero hn h
    · obtain ⟨d, ds, hds⟩ := List.exists_cons_of_ne_nil (digits_ne_nil (n / 10))
      have hfirst := ih (n / 10) (by omega) (by omega)
      rw [digits_of_le (Nat.le_of_not_lt hn), hds]
      rwa [hds] at hfirst

/-- A number has so many digits as powers of ten are at most as large. -/
theorem lt_pow_length_digits (n : Nat) : n < 10 ^ (digits n).length := by
  induction n using Nat.strongRecOn with
  | ind n ih =>
    by_cases h : n < 10
    · simpa [digits_of_lt h] using h
    · have hrest := ih (n / 10) (by omega)
      rw [digits_of_le (Nat.le_of_not_lt h), List.length_append, List.length_singleton,
        Nat.pow_succ]
      omega

theorem pow_length_digits_le {n : Nat} (hn : n ≠ 0) : 10 ^ (digits n).length ≤ 10 * n := by
  induction n using Nat.strongRecOn with
  | ind n ih =>
    by_cases h : n < 10
    · rw [digits_of_lt h, List.length_singleton]
      omega
    · have hrest := ih (n / 10) (by omega) (by omega)
      rw [digits_of_le (Nat.le_of_not_lt h), List.length_append, List.length_singleton,
        Nat.pow_succ]
      omega

/-- A number times a power of ten has zeros behind its digits. -/
theorem digits_mul_pow {n : Nat} (hn : n ≠ 0) (k : Nat) :
    digits (n * 10 ^ k) = digits n ++ List.replicate k '0' := by
  induction k with
  | zero => simp
  | succ k ih =>
    have hpos : 0 < n * 10 ^ k := Nat.mul_pos (Nat.pos_of_ne_zero hn) (Nat.pow_pos (by decide))
    have hdiv : n * 10 ^ (k + 1) / 10 = n * 10 ^ k := by
      rw [Nat.pow_succ, ← Nat.mul_assoc, Nat.mul_div_cancel _ (by decide)]
    have hmod : n * 10 ^ (k + 1) % 10 = 0 := by
      rw [Nat.pow_succ, ← Nat.mul_assoc, Nat.mul_mod_left]
    rw [digits_of_le (by omega), hdiv, hmod, ih, List.append_assoc, List.replicate_succ']
    rfl

/-! ## The number of some digits -/

theorem valueAfter_append (high : Nat) (ds es : Text) :
    valueAfter high (ds ++ es) = valueAfter (valueAfter high ds) es := List.foldl_append

theorem valueAfter_eq (high : Nat) (ds : Text) :
    valueAfter high ds = high * 10 ^ ds.length + value ds := by
  induction ds generalizing high with
  | nil => exact (Nat.mul_one high).symm
  | cons d ds ih =>
    have hstep (n : Nat) : valueAfter n (d :: ds) = valueAfter (10 * n + digitValue d) ds := rfl
    rw [value, hstep, hstep, ih, ih (10 * 0 + digitValue d), List.length_cons, Nat.pow_succ]
    ring

theorem value_append (ds es : Text) : value (ds ++ es) = value ds * 10 ^ es.length + value es := by
  rw [value, valueAfter_append, valueAfter_eq]
  rfl

/-- **The digits of a number stand for it.** -/
theorem value_digits (n : Nat) : value (digits n) = n := by
  induction n using Nat.strongRecOn with
  | ind n ih =>
    by_cases h : n < 10
    · rw [digits_of_lt h]
      simp [value, valueAfter, digitValue_digitChar h]
    · rw [digits_of_le (Nat.le_of_not_lt h), value_append, ih (n / 10) (by omega)]
      have hlast := digitValue_digitChar (Nat.mod_lt n (by decide : 0 < 10))
      simp only [value, valueAfter, List.foldl_cons, List.foldl_nil, hlast, List.length_singleton]
      omega

theorem value_replicate_zero (k : Nat) : value (List.replicate k '0') = 0 := by
  induction k with
  | zero => rfl
  | succ k ih =>
    rw [List.replicate_succ', value_append, ih]
    rfl

end SqlInterchange.Decimal
