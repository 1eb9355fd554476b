import StateCheck.Proofs.Number.Order
/-!
How far the decimal of a number is from its value.

A digit that is dropped costs half a unit of the place before it, and all digits that are dropped
together at most five ninths of a unit of the last place that is left
(`Decimal.trimPrecision_near`). Digits are dropped for precision only while the mantissa has 52 bits,
so what is left is large (`Decimal.trimPrecision_settles`), and a number from `2 ^ 49` on has no
places left at all (`Decimal.trimmed_whole`).
-/
namespace StateCheck
set_option autoImplicit false

namespace Decimal

variable {m n k places : Nat}

/-! ## Dropped digits -/

theorem dropDigit_near (m : Nat) : |(dropDigit m : ℚ) - m / 10| ≤ 1 / 2 := by
  have hnear : m ≤ 10 * dropDigit m + 4 ∧ 10 * dropDigit m ≤ m + 5 := by
    unfold dropDigit
    split <;> omega
  have hlow : (m : ℚ) ≤ 10 * dropDigit m + 4 := by exact_mod_cast hnear.1
  have hhigh : 10 * (dropDigit m : ℚ) ≤ m + 5 := by exact_mod_cast hnear.2
  rw [abs_le]
  constructor <;> linarith

theorem dropDigit_scaled (m k : Nat) :
    |(dropDigit m : ℚ) / 10 ^ k - m / 10 ^ (k + 1)| ≤ 1 / 2 * (1 / 10 ^ k) := by
  have hsplit : (dropDigit m : ℚ) / 10 ^ k - m / 10 ^ (k + 1) =
      (dropDigit m - m / 10) * (1 / 10 ^ k) := by
    rw [pow_succ]
    field_simp
  rw [hsplit, abs_mul, abs_of_pos (by positivity : (0 : ℚ) < 1 / 10 ^ k)]
  gcongr
  exact dropDigit_near m

/-- The digits that are dropped cost less than they would all together, each tenth of a unit being
the least of what comes before it. -/
theorem trimPrecision_near (k m : Nat) : |fraction (trimPrecision k m) - m / 10 ^ k| ≤
    5 / 9 * (1 / 10 ^ (trimPrecision k m).2 - 1 / 10 ^ k) := by
  induction k generalizing m with
  | zero => simp [trimPrecision, fraction]
  | succ k ih =>
    rcases Nat.lt_or_ge m (2 ^ 52) with hm | hm
    · rw [trimPrecision_of_lt hm, fraction]
      simp
    · rw [trimPrecision_succ hm]
      have htriangle := abs_sub_le (fraction (trimPrecision k (dropDigit m)))
        (dropDigit m / 10 ^ k) (m / 10 ^ (k + 1))
      have hrest := ih (dropDigit m)
      have hfirst := dropDigit_scaled m k
      have hunit : (1 : ℚ) / 10 ^ (k + 1) = 1 / 10 ^ k / 10 := by rw [pow_succ, div_div]
      rw [hunit]
      linarith

/-- Either no digit is dropped, or the mantissa that is left is that of a large one. -/
theorem trimPrecision_settles (k m : Nat) :
    trimPrecision k m = (m, k) ∨ 450359962737050 ≤ (trimPrecision k m).1 := by
  induction k generalizing m with
  | zero => exact .inl rfl
  | succ k ih =>
    rcases Nat.lt_or_ge m (2 ^ 52) with hm | hm
    · exact .inl (trimPrecision_of_lt hm (k + 1))
    · rw [trimPrecision_succ hm]
      rcases ih (dropDigit m) with hkept | hlarge
      · rw [hkept]
        exact .inr (dropDigit_mono hm)
      · exact .inr hlarge

theorem dropDigits_kept (h : (dropDigits n m).2 = true) :
    |((dropDigits n m).1 : ℚ) - m / 10 ^ n| ≤ 5 / 9 * (1 - 1 / 10 ^ n) := by
  induction n generalizing m with
  | zero => simp [dropDigits]
  | succ n ih =>
    rw [dropDigits] at h ⊢
    split at h
    · cases h
    · next hm =>
      rw [if_neg hm]
      have htriangle := abs_sub_le ((dropDigits n (dropDigit m)).1 : ℚ) (dropDigit m / 10 ^ n)
        (m / 10 ^ (n + 1))
      have hrest := ih h
      have hfirst := dropDigit_scaled m n
      have hunit : (1 : ℚ) / 10 ^ (n + 1) = 1 / 10 ^ n / 10 := by rw [pow_succ, div_div]
      rw [hunit]
      linarith

theorem dropDigits_lost (h : (dropDigits n m).2 = false) : m < 10 ^ n := by
  induction n generalizing m with
  | zero => cases h
  | succ n ih =>
    rw [dropDigits] at h
    have hten : 10 ^ (n + 1) = 10 * 10 ^ n := pow_succ' 10 n
    split at h
    · have hpos : 0 < 10 ^ n := by positivity
      omega
    · have hrest := ih h
      unfold dropDigit at hrest
      split at hrest <;> omega

/-! ## Digits that are left -/

/-- With 28 places, or fewer, nothing is dropped before the precision is trimmed; else what is
dropped is below the last of 28 places. -/
theorem trimmed_cases (places m : Nat) :
    (trimmed places m = (0, 0) ∧ (m : ℚ) / 10 ^ places ≤ 1 / 10 ^ 28) ∨
    ∃ n k, trimmed places m = trimPrecision k n ∧
      |(n : ℚ) / 10 ^ k - m / 10 ^ places| ≤ 5 / 9 * (1 / 10 ^ k) ∧
      |(n : ℚ) / 10 ^ k - m / 10 ^ places| ≤ 1 / 10 ^ 28 := by
  rcases Nat.lt_or_ge 28 places with hplaces | hplaces
  · obtain ⟨more, rfl⟩ : ∃ more, places = more + 28 := ⟨places - 28, by omega⟩
    rw [trimmed, Nat.add_sub_cancel, Nat.min_eq_right (by omega)]
    have hscale : (m : ℚ) / 10 ^ (more + 28) = m / 10 ^ more * (1 / 10 ^ 28) := by
      rw [pow_add]
      field_simp
    cases hkept : (dropDigits more m).2 with
    | true =>
      refine .inr ⟨(dropDigits more m).1, 28, by simp, ?_⟩
      have hnear := dropDigits_kept hkept
      have hunit : (0 : ℚ) ≤ 1 / 10 ^ more := by positivity
      have hsplit : ((dropDigits more m).1 : ℚ) / 10 ^ 28 - m / 10 ^ (more + 28) =
          ((dropDigits more m).1 - m / 10 ^ more) * (1 / 10 ^ 28) := by
        rw [hscale]
        ring
      rw [hsplit, abs_mul, abs_of_pos (by positivity : (0 : ℚ) < 1 / 10 ^ 28)]
      constructor
      · gcongr
        linarith
      · exact mul_le_of_le_one_left (by positivity) (by linarith)
    | false =>
      have hzero := dropDigits_of_lost hkept
      refine .inl ⟨by simp [hzero, trimPrecision], ?_⟩
      have hlt : (m : ℚ) ≤ 10 ^ more := by exact_mod_cast (dropDigits_lost hkept).le
      rw [hscale]
      refine mul_le_of_le_one_left (by positivity) ?_
      rw [div_le_one (by positivity)]
      exact hlt
  · refine .inr ⟨m, places, ?_, ?_⟩
    · rw [trimmed, Nat.sub_eq_zero_of_le hplaces, Nat.min_eq_left hplaces]
      rfl
    · rw [sub_self, abs_zero]
      constructor <;> positivity

/-- What is left of a value is near to it: by less than a unit, and in proportion to what is left as
long as 28 places can tell it from zero. -/
theorem settled_near (places m : Nat) :
    |fraction (settled places m) - m / 10 ^ places| ≤ 5 / 9 ∧
    |fraction (settled places m) - m / 10 ^ places| ≤
      fraction (settled places m) / (5 * 2 ^ 47) + 1 / 10 ^ 28 := by
  rw [settled_eq]
  rcases trimmed_cases places m with ⟨hlost, hsmall⟩ | ⟨n, k, hkept, hunit, hsmall⟩
  · have hvalue : |fraction (0, 0) - m / 10 ^ places| = (m : ℚ) / 10 ^ places := by
      rw [fraction, Nat.cast_zero, zero_div, zero_sub, abs_neg, abs_of_nonneg (by positivity)]
    rw [hlost, hvalue]
    refine ⟨hsmall.trans (by norm_num), hsmall.trans ?_⟩
    simp [fraction]
  · rw [hkept]
    have htriangle := abs_sub_le (fraction (trimPrecision k n)) (n / 10 ^ k) (m / 10 ^ places)
    have hnear := trimPrecision_near k n
    rcases trimPrecision_settles k n with hsame | hlarge
    · -- no digit is dropped for precision
      have hfraction : fraction (trimPrecision k n) = n / 10 ^ k := by rw [hsame, fraction]
      have hpos : (0 : ℚ) ≤ n / 10 ^ k := by positivity
      rw [hfraction]
      refine ⟨hsmall.trans (by norm_num), ?_⟩
      linarith [div_nonneg hpos (by norm_num : (0 : ℚ) ≤ 5 * 2 ^ 47)]
    · have hlast : (450359962737050 : ℚ) * (1 / 10 ^ (trimPrecision k n).2) ≤
          fraction (trimPrecision k n) := by
        have hcast : (450359962737050 : ℚ) ≤ (trimPrecision k n).1 := by exact_mod_cast hlarge
        rw [fraction, mul_one_div]
        gcongr
      have hone : (1 : ℚ) / 10 ^ (trimPrecision k n).2 ≤ 1 :=
        div_le_one_of_le₀ (one_le_pow₀ (by norm_num)) (by positivity)
      have htotal : |fraction (trimPrecision k n) - m / 10 ^ places| ≤
          5 / 9 * (1 / 10 ^ (trimPrecision k n).2) := by linarith
      have hpos := fraction_nonneg (trimPrecision k n)
      constructor <;> linarith

/-! ## Numbers without places -/

theorem trimPrecision_whole (h : 2 ^ 52 * 10 ^ k ≤ 10 * m) : (trimPrecision k m).2 = 0 := by
  induction k generalizing m with
  | zero => rfl
  | succ k ih =>
    have hten : 10 ^ (k + 1) = 10 * 10 ^ k := pow_succ' 10 k
    have hpos : 1 ≤ 10 ^ k := Nat.one_le_pow _ _ (by decide)
    rw [trimPrecision_succ (by omega)]
    cases k with
    | zero => rfl
    | succ k =>
      refine ih ?_
      have hnext : 10 ^ (k + 1) = 10 * 10 ^ k := pow_succ' 10 k
      unfold dropDigit
      split <;> omega

theorem dropDigits_pow (hm : 0 < m) (n : Nat) : dropDigits n (m * 10 ^ n) = (m, true) := by
  induction n with
  | zero => simp [dropDigits]
  | succ n ih => rw [pow_succ, ← mul_assoc, dropDigits_ten (by positivity), ih]

theorem trimmed_whole (h : 2 ^ 49 * 10 ^ places ≤ m) : (trimmed places m).2 = 0 := by
  rcases Nat.lt_or_ge 28 places with hplaces | hplaces
  · obtain ⟨more, rfl⟩ : ∃ more, places = more + 28 := ⟨places - 28, by omega⟩
    rw [trimmed, Nat.add_sub_cancel, Nat.min_eq_right (by omega)]
    have hle : 2 ^ 49 * 10 ^ 28 * 10 ^ more ≤ m := by
      rw [mul_assoc, ← pow_add, Nat.add_comm 28]
      exact h
    have hpow := dropDigits_pow (m := 2 ^ 49 * 10 ^ 28) (by positivity) more
    obtain ⟨hkept, hlarge⟩ := dropDigits_mono hle (by rw [hpow])
    rw [hpow] at hlarge
    rw [hkept, if_pos rfl]
    exact trimPrecision_whole (by omega)
  · rw [trimmed, Nat.sub_eq_zero_of_le hplaces, Nat.min_eq_left hplaces]
    exact trimPrecision_whole (k := places) (m := m) (by omega)

end Decimal

namespace Number

variable {a : Number}

/-! ## Ranks -/

theorem abs_value_sub_raw (hzero : a.value ≠ 0) : |a.value| - a.raw ≤ |a.value| / 2 ^ 82 := by
  cases a with
  | int n =>
    rw [value, raw, sub_self]
    positivity
  | float x =>
    have hx := significand_pos hzero
    have hle : x.magnitude - x.magnitude / 2 ^ 82 ≤ x.raw := Double.le_raw hx (by linarith)
    rw [value, x.abs_value, raw]
    linarith

theorem rank_near (ha : a.Fits) {d : Decimal} (hd : a.toDecimal? = some d) :
    |a.value - a.rank| ≤ |a.value| / 2 ^ 82 + 5 / 9 ∧
    |a.value - a.rank| ≤ |a.rank| / 2 ^ 49 + 1 / 10 ^ 27 := by
  rcases eq_or_ne a.value 0 with hzero | hzero
  · rw [rank_zero hzero, hzero, sub_zero, abs_zero]
    norm_num
  rcases toDecimal?_reading ha hzero with ⟨-, hnone⟩ | ⟨-, k, places, d', -, hraw, hdecimal, hvalue⟩
  · rw [hd] at hnone
    cases hnone
  rw [hd] at hdecimal
  obtain rfl := Option.some.inj hdecimal
  have hrank : a.rank = sign a.negative * Decimal.fraction (Decimal.settled places k) := by
    rw [rank, hd]
    exact hvalue
  have habs : |a.rank| = Decimal.fraction (Decimal.settled places k) := by
    rw [hrank, abs_sign_mul, abs_of_nonneg (Decimal.fraction_nonneg _)]
  have hsame : |a.value - a.rank| = |(|a.value| - |a.rank|)| := by
    rw [habs, hrank]
    conv_lhs => rw [a.value_eq]
    rw [abs_sign_mul_sub]
  obtain ⟨hunit, hnear⟩ := Decimal.settled_near places k
  have hraw : a.raw = k / 10 ^ places := hraw
  rw [← habs, ← hraw, abs_sub_comm] at hunit hnear
  have hloss := abs_value_sub_raw hzero
  have hle := raw_le hzero
  -- From the value to its decimal by way of what the expansion leaves of the value.
  have htriangle := abs_sub_le |a.value| a.raw |a.rank|
  rw [abs_of_nonneg (by linarith : 0 ≤ |a.value| - a.raw)] at htriangle
  rw [hsame]
  have hup := le_abs_self (a.raw - |a.rank|)
  have hpos := abs_nonneg a.rank
  constructor <;> linarith

end Number
end StateCheck
