import StateCheck.Proofs.Number.Value
/-!
From doubles to decimals.

A double is first brought to a mantissa and a decimal exponent, with a loss that is far below the
distance of two doubles (`Decimal.expand_near`), and then to the digits it warrants, which depend on
the value only and are monotone in it (`Decimal.settled_mono`).
-/
namespace StateCheck
set_option autoImplicit false

namespace Decimal

variable {m m' n k p p' steps : Nat} {e e' : Int} {v w : ℚ}

/-! ## Mantissa and decimal exponent -/

/-- `w` is what `steps` roundings down leave of `v`, each with a loss of at most `v / 2 ^ 93`. -/
def Near (steps : Nat) (v w : ℚ) : Prop := w ≤ v ∧ v - w ≤ steps * (v / 2 ^ 93)

theorem near_zero (v : ℚ) : Near 0 v v := ⟨le_rfl, by simp⟩

theorem Near.step {u : ℚ} (h : Near steps v w) (hle : v ≤ u) (hloss : u - v ≤ u / 2 ^ 93) :
    Near (steps + 1) u w := by
  refine ⟨h.1.trans hle, ?_⟩
  have hmore : (steps : ℚ) * (v / 2 ^ 93) ≤ steps * (u / 2 ^ 93) := by gcongr
  push_cast
  linarith [h.2]

theorem Near.mono (h : Near steps v w) (hv : 0 ≤ v) (hle : steps ≤ n) : Near n v w := by
  refine ⟨h.1, h.2.trans ?_⟩
  gcongr

theorem Near.div {d : Nat} {unit : ℚ} (hd : 0 < d) (hm : (d - 1) * 2 ^ 93 ≤ m) (hunit : 0 ≤ unit)
    (h : Near steps ((m / d : Nat) * d * unit) w) : Near (steps + 1) (m * unit) w := by
  have hmod : m % d ≤ d - 1 := by
    have := Nat.mod_lt m hd
    omega
  have hsplit : (m : ℚ) = (m / d : Nat) * d + (m % d : Nat) := by
    rw [← Nat.cast_mul, ← Nat.cast_add, Nat.div_add_mod']
  have hlarge : ((m % d : Nat) : ℚ) ≤ m / 2 ^ 93 := by
    rw [le_div_iff₀ (by positivity)]
    exact_mod_cast (Nat.mul_le_mul_right (2 ^ 93) hmod).trans hm
  refine h.step ?_ ?_
  · rw [hsplit, add_mul, le_add_iff_nonneg_right]
    positivity
  · calc m * unit - (m / d : Nat) * d * unit = (m % d : Nat) * unit := by
          rw [← sub_mul]
          congr 1
          rw [sub_eq_iff_eq_add', ← hsplit]
      _ ≤ m / 2 ^ 93 * unit := by gcongr
      _ = m * unit / 2 ^ 93 := by ring

theorem absorbHalves_near (hm : 0 < m) (hlt : m < 2 ^ 96) :
    0 < (absorbHalves n m e).1 ∧ (absorbHalves n m e).1 < 2 ^ 96 ∧
      (absorbHalves n m e).2 ≤ e + n ∧
      Near n (m * (10 ^ e * 5 ^ n)) ((absorbHalves n m e).1 * 10 ^ (absorbHalves n m e).2) := by
  induction n generalizing m e with
  | zero => exact ⟨hm, hlt, by simp [absorbHalves], by simpa [absorbHalves] using near_zero _⟩
  | succ n ih =>
    have htwo : (10 : ℚ) ^ (e + 1) * 5 ^ n = 2 * (10 ^ e * 5 ^ (n + 1)) := by
      rw [zpow_add_one₀ (by norm_num), pow_succ]
      ring
    rw [absorbHalves]
    split
    · next heven =>
      obtain ⟨hpos, hbound, hexp, hnear⟩ := ih (m := m / 2) (e := e + 1) (by omega) (by omega)
      refine ⟨hpos, hbound, by push_cast; omega, ?_⟩
      have hhalf : (m : ℚ) = (m / 2 : Nat) * 2 := by
        exact_mod_cast (Nat.div_mul_cancel (Nat.dvd_of_mod_eq_zero heven)).symm
      have hvalue : (m : ℚ) * (10 ^ e * 5 ^ (n + 1)) = (m / 2 : Nat) * (10 ^ (e + 1) * 5 ^ n) := by
        rw [htwo, ← mul_assoc ((m / 2 : Nat) : ℚ), ← hhalf]
      rw [hvalue]
      exact hnear.mono (by positivity) (Nat.le_succ n)
    · split
      · next hfits =>
        obtain ⟨hpos, hbound, hexp, hnear⟩ := ih (m := m * 5) (e := e) (by omega) hfits
        refine ⟨hpos, hbound, by push_cast; omega, ?_⟩
        have hvalue : (m : ℚ) * (10 ^ e * 5 ^ (n + 1)) = (m * 5 : Nat) * (10 ^ e * 5 ^ n) := by
          push_cast
          ring
        rw [hvalue]
        exact hnear.mono (by positivity) (Nat.le_succ n)
      · next hfull =>
        rw [pow2_eq] at hfull
        obtain ⟨hpos, hbound, hexp, hnear⟩ := ih (m := m / 2) (e := e + 1) (by omega) (by omega)
        refine ⟨hpos, hbound, by push_cast; omega, ?_⟩
        refine Near.div two_pos (by omega) (by positivity) ?_
        rw [htwo, ← mul_assoc] at hnear
        exact_mod_cast hnear

theorem absorbDoubles_near (hm : 0 < m) (hlt : m < 2 ^ 96) :
    0 < (absorbDoubles n m e).1 ∧ (absorbDoubles n m e).1 < 2 ^ 96 ∧
      e - n ≤ (absorbDoubles n m e).2 ∧
      Near n (m * (10 ^ e / 5 ^ n)) ((absorbDoubles n m e).1 * 10 ^ (absorbDoubles n m e).2) := by
  induction n generalizing m e with
  | zero => exact ⟨hm, hlt, by simp [absorbDoubles], by simpa [absorbDoubles] using near_zero _⟩
  | succ n ih =>
    rw [absorbDoubles]
    split
    · next hroom =>
      rw [pow2_eq] at hroom
      obtain ⟨hpos, hbound, hexp, hnear⟩ := ih (m := m * 2) (e := e - 1) (by omega) (by omega)
      refine ⟨hpos, hbound, by push_cast; omega, ?_⟩
      have hvalue : (m : ℚ) * (10 ^ e / 5 ^ (n + 1)) = (m * 2 : Nat) * (10 ^ (e - 1) / 5 ^ n) := by
        rw [zpow_sub_one₀ (by norm_num), pow_succ]
        push_cast
        field_simp
        norm_num
      rw [hvalue]
      exact hnear.mono (by positivity) (Nat.le_succ n)
    · next hfull =>
      rw [pow2_eq] at hfull
      obtain ⟨hpos, hbound, hexp, hnear⟩ := ih (m := m / 5) (e := e) (by omega) (by omega)
      refine ⟨hpos, hbound, by push_cast; omega, ?_⟩
      refine Near.div (d := 5) (by decide) (by omega) (by positivity) ?_
      have hvalue : ((m / 5 : Nat) : ℚ) * (10 ^ e / 5 ^ n) =
          (m / 5 : Nat) * (5 : Nat) * (10 ^ e / 5 ^ (n + 1)) := by
        rw [pow_succ]
        push_cast
        field_simp
      rwa [hvalue] at hnear

/-! Integers come through unchanged. -/

theorem absorbHalves_mul (n k : Nat) (e : Int) : absorbHalves k (n * 2 ^ k) e = (n, e + k) := by
  induction k generalizing e with
  | zero => simp [absorbHalves]
  | succ k ih =>
    have heven : n * 2 ^ (k + 1) % 2 = 0 := by rw [pow_succ, ← mul_assoc, Nat.mul_mod_left]
    have hhalf : n * 2 ^ (k + 1) / 2 = n * 2 ^ k := by
      rw [pow_succ, ← mul_assoc, Nat.mul_div_cancel _ two_pos]
    rw [absorbHalves, if_pos heven, hhalf, ih]
    push_cast
    ring_nf

theorem absorbDoubles_of_lt (h : m * 2 ^ n ≤ 2 ^ 95) :
    absorbDoubles n m e = (m * 2 ^ n, e - n) := by
  induction n generalizing m e with
  | zero => simp [absorbDoubles]
  | succ n ih =>
    have hdouble : m * 2 ^ (n + 1) = m * 2 * 2 ^ n := by ring
    have hroom : m < pow2 95 := by
      rw [pow2_eq]
      have hle : m * 2 * 1 ≤ m * 2 * 2 ^ n := Nat.mul_le_mul_left _ Nat.one_le_two_pow
      omega
    rw [hdouble] at h ⊢
    rw [absorbDoubles, if_pos hroom, ih h]
    push_cast
    ring_nf

/-- The mantissa and the decimal exponent of `m * 2 ^ e`. -/
def expand (m : Nat) (e : Int) : Nat × Int :=
  if e ≤ 0 then absorbHalves (-e).toNat m e else absorbDoubles e.toNat m e

/-- What `m * 2 ^ e` is expanded to. -/
def raw (m : Nat) (e : Int) : ℚ := (expand m e).1 * 10 ^ (expand m e).2

theorem expand_bounds (hm : 0 < m) (hlt : m < 2 ^ 53) : 0 < (expand m e).1 ∧
    (expand m e).1 < 2 ^ 96 ∧ ((expand m e).2 ≤ 0 ∨ 0 < e ∧ 0 ≤ (expand m e).2) := by
  have hlt : m < 2 ^ 96 := by omega
  unfold expand
  split
  · obtain ⟨hpos, hbound, hexp, -⟩ := absorbHalves_near (n := (-e).toNat) (e := e) hm hlt
    exact ⟨hpos, hbound, .inl (by omega)⟩
  · obtain ⟨hpos, hbound, hexp, -⟩ := absorbDoubles_near (n := e.toNat) (e := e) hm hlt
    exact ⟨hpos, hbound, .inr ⟨by omega, by omega⟩⟩

theorem raw_near (hm : 0 < m) (hlt : m < 2 ^ 53) (he : -1074 ≤ e ∧ e ≤ 971) :
    Near 1074 (m * 2 ^ e) (raw m e) := by
  have hlt : m < 2 ^ 96 := by omega
  have hten : (10 : ℚ) ^ e = 2 ^ e * 5 ^ e := by rw [← mul_zpow]; norm_num
  unfold raw expand
  split
  · next hneg =>
    obtain ⟨-, -, -, hnear⟩ := absorbHalves_near (n := (-e).toNat) (e := e) hm hlt
    have hvalue : (10 : ℚ) ^ e * 5 ^ (-e).toNat = 2 ^ e := by
      rw [hten, mul_assoc, ← zpow_natCast, Int.toNat_of_nonneg (by omega),
        ← zpow_add₀ (by norm_num)]
      simp
    rw [hvalue] at hnear
    exact hnear.mono (by positivity) (by omega)
  · next hpos =>
    obtain ⟨-, -, -, hnear⟩ := absorbDoubles_near (n := e.toNat) (e := e) hm hlt
    have hvalue : (10 : ℚ) ^ e / 5 ^ e.toNat = 2 ^ e := by
      rw [hten, ← zpow_natCast, Int.toNat_of_nonneg (by omega), mul_div_cancel_right₀]
      positivity
    rw [hvalue] at hnear
    exact hnear.mono (by positivity) (by omega)

/-! ## Digits -/

def fraction (digits : Nat × Nat) : ℚ := digits.1 / 10 ^ digits.2

theorem fraction_nonneg (digits : Nat × Nat) : 0 ≤ fraction digits := by
  unfold fraction
  positivity

theorem dropDigit_mono (h : m ≤ m') : dropDigit m ≤ dropDigit m' := by
  unfold dropDigit
  split <;> split <;> omega

theorem dropDigit_ten (m : Nat) : dropDigit (m * 10) = m := by
  unfold dropDigit
  split <;> omega

theorem dropDigit_le (m : Nat) : dropDigit m ≤ m := by
  unfold dropDigit
  split <;> omega

theorem dropDigits_mono (h : m ≤ m') (hkept : (dropDigits n m).2 = true) :
    (dropDigits n m').2 = true ∧ (dropDigits n m).1 ≤ (dropDigits n m').1 := by
  induction n generalizing m m' with
  | zero => exact ⟨rfl, h⟩
  | succ n ih =>
    rw [dropDigits] at hkept
    split at hkept
    · cases hkept
    · next hm =>
      rw [dropDigits, dropDigits, if_neg hm, if_neg (by omega)]
      exact ih (dropDigit_mono h) hkept

theorem dropDigits_of_lost (h : (dropDigits n m).2 = false) : (dropDigits n m).1 = 0 := by
  induction n generalizing m with
  | zero => cases h
  | succ n ih =>
    rw [dropDigits] at h ⊢
    split at h
    · next hm => rw [if_pos hm]
    · next hm =>
      rw [if_neg hm]
      exact ih h

theorem dropDigits_ten (hm : 0 < m) (n : Nat) : dropDigits (n + 1) (m * 10) = dropDigits n m := by
  rw [dropDigits, if_neg (by omega), dropDigit_ten]

theorem dropDigits_le (n m : Nat) : (dropDigits n m).1 ≤ m := by
  induction n generalizing m with
  | zero => exact le_rfl
  | succ n ih =>
    rw [dropDigits]
    split
    · exact Nat.zero_le m
    · exact (ih _).trans (dropDigit_le m)

theorem trimPrecision_of_lt (h : m < 2 ^ 52) (k : Nat) : trimPrecision k m = (m, k) := by
  cases k with
  | zero => rfl
  | succ k => rw [trimPrecision, pow2_eq, if_neg (by omega)]

theorem trimPrecision_succ (h : 2 ^ 52 ≤ m) (k : Nat) :
    trimPrecision (k + 1) m = trimPrecision k (dropDigit m) := by
  rw [trimPrecision, pow2_eq, if_pos h]

theorem trimPrecision_mono (h : m ≤ m') (k : Nat) :
    fraction (trimPrecision k m) ≤ fraction (trimPrecision k m') := by
  induction k generalizing m m' with
  | zero => simpa [trimPrecision, fraction] using h
  | succ k ih =>
    rcases Nat.lt_or_ge m (2 ^ 52) with hm | hm
    · rw [trimPrecision_of_lt hm]
      rcases Nat.lt_or_ge m' (2 ^ 52) with hm' | hm'
      · rw [trimPrecision_of_lt hm', fraction, fraction]
        gcongr
      · -- the least mantissa that loses a digit rounds up, and to one that loses no other
        rw [trimPrecision_succ hm']
        have hleast : fraction (trimPrecision k 450359962737050) ≤
            fraction (trimPrecision k (dropDigit m')) := ih (dropDigit_mono hm')
        refine le_trans ?_ hleast
        rw [trimPrecision_of_lt (by norm_num), fraction, fraction, div_le_div_iff₀ (by positivity)
          (by positivity), pow_succ]
        have hle : (m : ℚ) ≤ 450359962737050 * 10 := by exact_mod_cast (by omega : m ≤ _)
        calc (m : ℚ) * 10 ^ k ≤ 450359962737050 * 10 * 10 ^ k := by gcongr
          _ = _ := by push_cast; ring
    · rw [trimPrecision_succ hm, trimPrecision_succ (hm.trans h)]
      exact ih (dropDigit_mono h)

theorem trimPrecision_ten (m k : Nat) :
    fraction (trimPrecision (k + 1) (m * 10)) = fraction (trimPrecision k m) := by
  rcases Nat.lt_or_ge (m * 10) (2 ^ 52) with hm | hm
  · rw [trimPrecision_of_lt hm, trimPrecision_of_lt (by omega), fraction, fraction, pow_succ]
    push_cast
    field_simp
  · rw [trimPrecision_succ hm, dropDigit_ten]

theorem trimPrecision_le (k m : Nat) : (trimPrecision k m).1 ≤ m ∧ (trimPrecision k m).2 ≤ k := by
  induction k generalizing m with
  | zero => exact ⟨le_rfl, le_rfl⟩
  | succ k ih =>
    rcases Nat.lt_or_ge m (2 ^ 52) with hm | hm
    · rw [trimPrecision_of_lt hm]
      exact ⟨le_rfl, le_rfl⟩
    · rw [trimPrecision_succ hm]
      exact ⟨(ih _).1.trans (dropDigit_le m), (ih _).2.trans (Nat.le_succ k)⟩

theorem trimZeros_fraction (k m : Nat) : fraction (trimZeros k m) = m / 10 ^ k ∧
    (trimZeros k m).1 ≤ m ∧ (trimZeros k m).2 ≤ k := by
  induction k generalizing m with
  | zero => exact ⟨rfl, le_rfl, le_rfl⟩
  | succ k ih =>
    rw [trimZeros]
    split
    · next hzero =>
      obtain ⟨hvalue, hle, hk⟩ := ih (m / 10)
      have hten : (m : ℚ) = (m / 10 : Nat) * 10 := by
        exact_mod_cast (Nat.div_mul_cancel (Nat.dvd_of_mod_eq_zero hzero)).symm
      refine ⟨?_, by omega, by omega⟩
      calc fraction (trimZeros k (m / 10)) = (m / 10 : Nat) * 10 / (10 ^ k * 10) := by
            rw [hvalue, mul_div_mul_right _ _ (by norm_num)]
        _ = m / 10 ^ (k + 1) := by rw [← hten, pow_succ]
    · exact ⟨rfl, le_rfl, le_rfl⟩

/-- The digits of a mantissa with so many places that a double warrants. -/
def trimmed (places m : Nat) : Nat × Nat :=
  let digits := dropDigits (places - 28) m
  trimPrecision (if digits.2 then min places 28 else 0) digits.1

/-- These digits without trailing zeros. -/
def settled (places m : Nat) : Nat × Nat := trimZeros (trimmed places m).2 (trimmed places m).1

theorem settled_eq (places m : Nat) : fraction (settled places m) = fraction (trimmed places m) :=
  (trimZeros_fraction _ _).1

theorem settled_zero (m : Nat) : fraction (settled 0 m) = m := by
  rw [settled_eq]
  simp [trimmed, dropDigits, trimPrecision, fraction]

theorem settled_le (places m : Nat) : (settled places m).1 ≤ m ∧ (settled places m).2 ≤ 28 := by
  obtain ⟨-, hmantissa, hplaces⟩ := trimZeros_fraction (trimmed places m).2 (trimmed places m).1
  have hdigits := dropDigits_le (places - 28) m
  obtain ⟨htrim, hkept⟩ := trimPrecision_le
    (if (dropDigits (places - 28) m).2 then min places 28 else 0) (dropDigits (places - 28) m).1
  have hplaces' : (if (dropDigits (places - 28) m).2 then min places 28 else 0) ≤ 28 := by
    split <;> omega
  exact ⟨hmantissa.trans (htrim.trans hdigits), hplaces.trans (hkept.trans hplaces')⟩

theorem settled_ten (hm : 0 < m) (places : Nat) :
    fraction (settled (places + 1) (m * 10)) = fraction (settled places m) := by
  rw [settled_eq, settled_eq, trimmed, trimmed]
  rcases Nat.lt_or_ge places 28 with hplaces | hplaces
  · have hnone : places + 1 - 28 = 0 ∧ places - 28 = 0 := by omega
    have hmin : min (places + 1) 28 = places + 1 ∧ min places 28 = places := by omega
    simp only [hnone, dropDigits, if_true, hmin, trimPrecision_ten]
  · have hdrop : places + 1 - 28 = places - 28 + 1 := by omega
    have hmin : min (places + 1) 28 = 28 ∧ min places 28 = 28 := by omega
    simp only [hdrop, dropDigits_ten hm, hmin]

theorem settled_mono_of_le (h : m ≤ m') (places : Nat) :
    fraction (settled places m) ≤ fraction (settled places m') := by
  rw [settled_eq, settled_eq, trimmed, trimmed]
  cases hkept : (dropDigits (places - 28) m).2 with
  | true =>
    obtain ⟨hkept', hle⟩ := dropDigits_mono h hkept
    simp only [hkept']
    exact trimPrecision_mono hle _
  | false =>
    have hzero : fraction (trimPrecision 0 0) = 0 := by simp [trimPrecision, fraction]
    simp only [dropDigits_of_lost hkept, Bool.false_eq_true, if_false, hzero]
    exact fraction_nonneg _

theorem settled_shift (hm : 0 < m) (places k : Nat) :
    fraction (settled (places + k) (m * 10 ^ k)) = fraction (settled places m) := by
  induction k with
  | zero => simp
  | succ k ih =>
    rw [pow_succ, ← mul_assoc, ← Nat.add_assoc, settled_ten (by positivity), ih]

theorem settled_mono (hm : 0 < m) (hm' : 0 < m') (h : fraction (m, p) ≤ fraction (m', p')) :
    fraction (settled p m) ≤ fraction (settled p' m') := by
  have hle : m * 10 ^ p' ≤ m' * 10 ^ p := by
    rw [fraction, fraction, div_le_div_iff₀ (by positivity) (by positivity)] at h
    exact_mod_cast h
  rw [← settled_shift hm p p', ← settled_shift hm' p' p, Nat.add_comm p']
  exact settled_mono_of_le hle _

/-! ## The decimal of a double -/

theorem spendTens_eq (hm : m < 2 ^ 96) (n : Nat) :
    spendTens n m = if m * 10 ^ n < 2 ^ 96 then some (m * 10 ^ n) else none := by
  induction n generalizing m with
  | zero => rw [pow_zero, mul_one, if_pos hm, spendTens]
  | succ n ih =>
    have hten : m * 10 ^ (n + 1) = m * 10 * 10 ^ n := by ring
    rw [spendTens, hten, pow2_eq]
    split
    · next hfits => exact ih hfits
    · next hfull =>
      have hle : m * 10 * 1 ≤ m * 10 * 10 ^ n :=
        Nat.mul_le_mul_left _ (Nat.one_le_pow _ _ (by decide))
      rw [if_neg (by omega)]

/-- The mantissa once there is no positive exponent left, if it still fits. -/
def spent (digits : Nat × Int) : Option Nat :=
  if 0 < digits.2 then spendTens digits.2.toNat digits.1 else some digits.1

theorem ofDouble?_eq {x : Double} (hx : x.significand ≠ 0) :
    ofDouble? x = (spent (expand x.significand x.exponent)).bind fun m =>
      let digits := settled (-(expand x.significand x.exponent).2).toNat m
      mk? x.negative digits.1 digits.2 := by
  rw [ofDouble?, if_neg hx]
  have hexpand : (if x.exponent ≤ 0 then
      absorbHalves (-x.exponent).toNat x.significand x.exponent
    else absorbDoubles x.exponent.toNat x.significand x.exponent) =
      expand x.significand x.exponent := rfl
  rw [hexpand]
  generalize expand x.significand x.exponent = digits
  obtain ⟨m, e⟩ := digits
  have hspent : (if 0 < e then spendTens e.toNat m else some m) = spent (m, e) := rfl
  dsimp only
  rw [hspent]
  cases spent (m, e) <;> rfl

theorem spent_expand (hm : 0 < m) (hlt : m < 2 ^ 53) :
    2 ^ 96 ≤ raw m e ∧ spent (expand m e) = none ∨
    raw m e < 2 ^ 96 ∧ ∃ k, 0 < k ∧ k < 2 ^ 96 ∧ spent (expand m e) = some k ∧
      raw m e = fraction (k, (-(expand m e).2).toNat) := by
  obtain ⟨hpos, hbound, -⟩ := expand_bounds (e := e) hm hlt
  unfold raw spent fraction
  generalize expand m e = digits at hpos hbound ⊢
  obtain ⟨k, e⟩ := digits
  dsimp only at hpos hbound ⊢
  split
  · next he =>
    -- a power of ten is spent, and the value is whole
    have hvalue : (k : ℚ) * 10 ^ e = (k * 10 ^ e.toNat : Nat) := by
      push_cast
      rw [← zpow_natCast, Int.toNat_of_nonneg he.le]
    rw [spendTens_eq hbound, hvalue]
    split
    · next hfits =>
      have hplaces : (-e).toNat = 0 := by omega
      refine .inr ⟨by exact_mod_cast hfits, _, by positivity, hfits, rfl, ?_⟩
      rw [hplaces, pow_zero, div_one]
    · next hfull => exact .inl ⟨by exact_mod_cast Nat.le_of_not_lt hfull, rfl⟩
  · next he =>
    have hvalue : (k : ℚ) * 10 ^ e = k / 10 ^ (-e).toNat := by
      rw [← zpow_natCast, Int.toNat_of_nonneg (by omega), zpow_neg, div_inv_eq_mul]
    refine .inr ⟨?_, k, hpos, hbound, rfl, hvalue⟩
    rw [hvalue, div_lt_iff₀ (by positivity)]
    have hle : (1 : ℚ) ≤ 10 ^ (-e).toNat := one_le_pow₀ (by norm_num)
    have hk : (k : ℚ) < 2 ^ 96 := by exact_mod_cast hbound
    nlinarith

/-- A double has a decimal when it is expanded to less than 96 bits hold, and the decimal has the
digits of that expansion. -/
theorem ofDouble?_reading {x : Double} (hx : x.significand ≠ 0) :
    2 ^ 96 ≤ raw x.significand x.exponent ∧ ofDouble? x = none ∨
    raw x.significand x.exponent < 2 ^ 96 ∧ ∃ k places d, 0 < k ∧
      raw x.significand x.exponent = fraction (k, places) ∧ ofDouble? x = some d ∧
      d.value = sign x.negative * fraction (settled places k) := by
  rw [ofDouble?_eq hx]
  rcases spent_expand (e := x.exponent) (Nat.pos_of_ne_zero hx) x.canonical.1 with
    ⟨hraw, hnone⟩ | ⟨hraw, k, hk, hbound, hsome, hvalue⟩
  · exact .inl ⟨hraw, by rw [hnone]; rfl⟩
  · obtain ⟨hle, hplaces⟩ := settled_le (-(expand x.significand x.exponent).2).toNat k
    have hfits : (settled (-(expand x.significand x.exponent).2).toNat k).1 < pow2 96 :=
      hle.trans_lt hbound
    refine .inr ⟨hraw, k, _, ⟨x.negative, _, _, hfits, hplaces⟩, hk, hvalue, ?_, value_eq _⟩
    rw [hsome, Option.bind_some, mk?, dif_pos ⟨hfits, hplaces⟩]

end Decimal
end StateCheck
