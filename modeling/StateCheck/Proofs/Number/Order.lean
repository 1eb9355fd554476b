import StateCheck.Proofs.Number.Nearest
import StateCheck.Proofs.Number.Rounding
/-!
The order of numbers.

Numbers are ordered by their decimals, and by doubles where one of them has no decimal. Both agree
with one rank (`Number.cmp?_eq_compare`), which grows with the value (`Number.rank_mono`), so the
order is total and transitive whatever kinds of numbers are mixed, and never inverts the order of
values (`Number.comparison_total_preorder`).
-/
namespace StateCheck
set_option autoImplicit false

/-! ## Magnitudes of doubles -/

namespace Double

variable {x y : Double} {q : ℚ}

def magnitude (x : Double) : ℚ := x.significand * 2 ^ x.exponent

/-- The magnitude with the loss that the expansion in decimals makes. -/
def raw (x : Double) : ℚ := Decimal.raw x.significand x.exponent

theorem magnitude_nonneg (x : Double) : 0 ≤ x.magnitude := by
  unfold magnitude
  positivity

theorem abs_value (x : Double) : |x.value| = x.magnitude := by
  rw [value_eq, abs_sign_mul, ← magnitude, abs_of_nonneg x.magnitude_nonneg]

section Positive
variable (hx : 0 < x.significand)
include hx

theorem raw_near : Decimal.Near 1074 x.magnitude x.raw :=
  Decimal.raw_near hx x.canonical.1 ⟨x.canonical.2.1, x.canonical.2.2.1⟩

theorem raw_le : x.raw ≤ x.magnitude := (raw_near hx).1

/-- The loss is less than one unit, even if the significand had 82 bits. -/
theorem le_raw (h : q + x.magnitude / 2 ^ 82 ≤ x.magnitude) : q ≤ x.raw := by
  have hloss := (raw_near hx).2
  have hscale : 1074 * (x.magnitude / 2 ^ 93) ≤ x.magnitude / 2 ^ 82 := by
    have := x.magnitude_nonneg
    rw [mul_div_assoc', div_le_div_iff₀ (by positivity) (by positivity)]
    nlinarith
  push_cast at hloss
  linarith

theorem le_raw_of_units {k : Nat} (hk : k < x.significand) (hq : q ≤ k * 2 ^ x.exponent) :
    q ≤ x.raw := by
  refine le_raw hx ?_
  have hsucc : (k : ℚ) + 1 ≤ x.significand := by exact_mod_cast hk
  have hlt : (x.significand : ℚ) ≤ 2 ^ 53 := by exact_mod_cast x.canonical.1.le
  have hunit : (0 : ℚ) < 2 ^ x.exponent := by positivity
  have hloss : x.magnitude / 2 ^ 82 ≤ 2 ^ x.exponent := by
    rw [magnitude, div_le_iff₀ (by positivity)]
    nlinarith
  have hmag : (k + 1) * 2 ^ x.exponent ≤ x.magnitude := by
    unfold magnitude
    gcongr
  linarith

end Positive

/-- A larger exponent leaves room for the loss, as the significand is then a full one. -/
theorem magnitude_lt_of_exponent (h : x.exponent < y.exponent) :
    x.magnitude + y.magnitude / 2 ^ 82 ≤ y.magnitude := by
  have hfull : 2 ^ 52 ≤ y.significand := by
    have hleast := x.canonical.2.1
    exact y.canonical.2.2.2.resolve_right (by omega)
  have hunit : (0 : ℚ) < 2 ^ (y.exponent - 1) := by positivity
  have hx : x.magnitude ≤ (2 ^ 53 - 1) * 2 ^ (y.exponent - 1) := by
    have hlt : (x.significand : ℚ) + 1 ≤ 2 ^ 53 := by exact_mod_cast x.canonical.1
    have hle : (2 : ℚ) ^ x.exponent ≤ 2 ^ (y.exponent - 1) :=
      zpow_le_zpow_right₀ (by norm_num) (by omega)
    unfold magnitude
    gcongr
    linarith
  have hy : y.magnitude = 2 * y.significand * 2 ^ (y.exponent - 1) := by
    rw [magnitude, zpow_sub_one₀ two_ne_zero]
    ring
  have hloss : y.magnitude / 2 ^ 82 ≤ 2 ^ (y.exponent - 1) := by
    have hlt : (y.significand : ℚ) ≤ 2 ^ 53 := by exact_mod_cast y.canonical.1.le
    rw [hy, div_le_iff₀ (by positivity)]
    nlinarith
  have hlow : (2 : ℚ) ^ 53 ≤ 2 * y.significand := by exact_mod_cast (by omega : 2 ^ 53 ≤ _)
  rw [hy] at hloss ⊢
  nlinarith

theorem raw_mono (hx : 0 < x.significand) (hy : 0 < y.significand)
    (h : x.magnitude ≤ y.magnitude) : x.raw ≤ y.raw := by
  rcases lt_trichotomy x.exponent y.exponent with he | he | he
  · exact (raw_le hx).trans (le_raw hy (magnitude_lt_of_exponent he))
  · have hunit : (0 : ℚ) < 2 ^ y.exponent := by positivity
    rw [magnitude, magnitude, he, mul_le_mul_iff_left₀ hunit] at h
    have hle : x.significand ≤ y.significand := by exact_mod_cast h
    rcases hle.lt_or_eq with hlt | heq
    · refine (raw_le hx).trans (le_raw_of_units hy hlt ?_)
      rw [magnitude, he]
    · rw [raw, raw, heq, he]
  · exfalso
    have hmagnitude := magnitude_lt_of_exponent he
    have hpos : 0 < x.magnitude := by
      unfold magnitude
      positivity
    linarith [div_pos hpos (by norm_num : (0 : ℚ) < 2 ^ 82)]

/-- Integers of 64 bits are expanded to themselves, so nothing above one is expanded below it. -/
theorem natCast_le_raw {n : Nat} (hn : n ≤ 2 ^ 64) (hx : 0 < x.significand)
    (h : n ≤ x.magnitude) : n ≤ x.raw := by
  have hn : (n : ℚ) ≤ 2 ^ 64 := by exact_mod_cast hn
  rcases lt_or_ge 0 x.exponent with he | he
  · obtain ⟨k, hk⟩ := Int.eq_ofNat_of_zero_le he.le
    have hmagnitude : x.magnitude = (x.significand * 2 ^ k : Nat) := by
      rw [magnitude, hk, zpow_natCast]
      push_cast
      rfl
    rcases Nat.lt_or_ge (2 ^ 95) (x.significand * 2 ^ k) with hlarge | hsmall
    · have hlarge : (2 : ℚ) ^ 95 ≤ x.magnitude := by
        rw [hmagnitude]
        exact_mod_cast hlarge.le
      refine le_raw hx ?_
      linarith
    · have hexact : x.raw = x.magnitude := by
        rw [raw, Decimal.raw, Decimal.expand, hk, if_neg (by omega), Int.toNat_natCast,
          Decimal.absorbDoubles_of_lt hsmall, hmagnitude]
        simp
      rwa [hexact]
  · obtain ⟨k, hk⟩ := Int.exists_eq_neg_ofNat he
    have hmagnitude : x.magnitude * 2 ^ k = x.significand := by
      rw [magnitude, hk, mul_assoc, ← zpow_natCast, ← zpow_add₀ two_ne_zero]
      simp
    have hle : n * 2 ^ k ≤ x.significand := by
      have : (n : ℚ) * 2 ^ k ≤ x.magnitude * 2 ^ k := by gcongr
      rw [hmagnitude] at this
      exact_mod_cast this
    rcases hle.lt_or_eq with hlt | heq
    · refine le_raw_of_units hx hlt (le_of_eq ?_)
      rw [hk, Nat.cast_mul, Nat.cast_pow, mul_assoc, Nat.cast_ofNat, ← zpow_natCast,
        ← zpow_add₀ two_ne_zero]
      simp
    · have hexact : x.raw = n := by
        have hcount : (- -(k : Int)).toNat = k := by omega
        rw [raw, Decimal.raw, Decimal.expand, hk, if_pos (by omega), hcount, ← heq,
          Decimal.absorbHalves_mul]
        simp
      rw [hexact]

end Double

/-! ## Numbers -/

theorem sign_mul_mono {s t : Bool} {p q p' q' : ℚ} (hp : 0 ≤ p) (hq : 0 ≤ q)
    (hp' : 0 ≤ p') (hq' : 0 ≤ q') (hup : p ≤ q → p' ≤ q') (hdown : q ≤ p → q' ≤ p')
    (hzero : p = 0 → p' = 0) (hzero' : q = 0 → q' = 0) (h : sign s * p ≤ sign t * q) :
    sign s * p' ≤ sign t * q' := by
  cases s <;> cases t <;> simp only [sign, Bool.false_eq_true, if_false, if_true, one_mul,
    neg_one_mul] at h ⊢
  · exact hup h
  · have := hzero (by linarith)
    have := hzero' (by linarith)
    linarith
  · linarith
  · linarith [hdown (by linarith)]

theorem compare_of_abs_lt {p q q' : ℚ} (hq : |q| < |p|) (hq' : |q'| < |p|) :
    compare p q = compare p q' ∧ compare q p = compare q' p := by
  rw [abs_lt] at hq hq'
  rcases le_total 0 p with hp | hp
  · rw [abs_of_nonneg hp] at hq hq'
    rw [compare_gt_iff_gt.mpr hq.2, compare_gt_iff_gt.mpr hq'.2, compare_lt_iff_lt.mpr hq.2,
      compare_lt_iff_lt.mpr hq'.2]
    exact ⟨rfl, rfl⟩
  · rw [abs_of_nonpos hp, neg_neg] at hq hq'
    rw [compare_lt_iff_lt.mpr hq.1, compare_lt_iff_lt.mpr hq'.1, compare_gt_iff_gt.mpr hq.1,
      compare_gt_iff_gt.mpr hq'.1]
    exact ⟨rfl, rfl⟩

namespace Number

variable {a b : Number}

/-- The numbers that are read from text: their integers are those of 64 bits. -/
def Fits : Number → Prop
  | .int n => -2 ^ 63 ≤ n ∧ n < 2 ^ 64
  | .float _ => True

def negative : Number → Bool
  | .int n => n < 0
  | .float x => x.negative

def raw : Number → ℚ
  | .int n => |(n : ℚ)|
  | .float x => x.raw

/-- The value a number is ordered by: that of its decimal, if it has one. -/
def rank (a : Number) : ℚ :=
  match a.toDecimal? with
  | some d => d.value
  | none => a.value

theorem value_eq (a : Number) : a.value = sign a.negative * |a.value| := by
  cases a with
  | int n => rw [value, negative, ← Int.cast_abs, ← Nat.cast_natAbs, sign_mul_natAbs]
  | float x => rw [value, x.abs_value, negative, x.value_eq, Double.magnitude]

theorem significand_pos {x : Double} (hzero : (float x).value ≠ 0) : 0 < x.significand := by
  refine Nat.pos_of_ne_zero fun h => hzero ?_
  rw [value, x.value_eq, h]
  simp

theorem toDecimal?_zero (hzero : a.value = 0) : ∃ d, a.toDecimal? = some d ∧ d.value = 0 := by
  cases a with
  | int n =>
    have hn : n = 0 := Int.cast_eq_zero.mp hzero
    rw [hn]
    exact ⟨⟨false, 0, 0, by decide, by decide⟩, rfl, by simp [Decimal.value_eq]⟩
  | float x =>
    have hsignificand : x.significand = 0 := by
      have habs := x.abs_value
      rw [← abs_eq_zero, value, habs, Double.magnitude] at hzero
      simpa [(by positivity : (2 : ℚ) ^ x.exponent ≠ 0)] using hzero
    rw [toDecimal?, Decimal.ofDouble?, if_pos hsignificand]
    exact ⟨_, rfl, by simp [Decimal.value_eq]⟩

theorem rank_zero (hzero : a.value = 0) : a.rank = 0 := by
  obtain ⟨d, hd, hvalue⟩ := toDecimal?_zero hzero
  rw [rank, hd]
  exact hvalue

theorem toDecimal?_reading (ha : a.Fits) (hzero : a.value ≠ 0) :
    2 ^ 96 ≤ a.raw ∧ a.toDecimal? = none ∨
    a.raw < 2 ^ 96 ∧ ∃ k places d, 0 < k ∧ a.raw = Decimal.fraction (k, places) ∧
      a.toDecimal? = some d ∧
      d.value = sign a.negative * Decimal.fraction (Decimal.settled places k) := by
  cases a with
  | int n =>
    obtain ⟨hlow, hhigh⟩ := ha
    have hn : n ≠ 0 := fun h => hzero (by rw [h, value, Int.cast_zero])
    have hraw : raw (.int n) = (n.natAbs : Nat) := by rw [raw, Nat.cast_natAbs, Int.cast_abs]
    have hfits : n.natAbs < pow2 96 ∧ 0 ≤ 28 := by
      rw [pow2_eq]
      omega
    refine .inr ⟨?_, n.natAbs, 0, ⟨n < 0, n.natAbs, 0, hfits.1, hfits.2⟩, by omega, ?_,
      dif_pos hfits, ?_⟩
    · rw [hraw]
      exact_mod_cast hfits.1
    · rw [hraw, Decimal.fraction, pow_zero, div_one]
    · rw [Decimal.settled_zero, Decimal.value_eq, pow_zero, div_one]
      rfl
  | float x => exact Decimal.ofDouble?_reading (significand_pos hzero).ne'

theorem raw_le (hzero : a.value ≠ 0) : a.raw ≤ |a.value| := by
  cases a with
  | int n => exact le_rfl
  | float x =>
    rw [value, x.abs_value]
    exact Double.raw_le (significand_pos hzero)

theorem raw_mono (ha : a.Fits) (hzero : a.value ≠ 0) (hzero' : b.value ≠ 0)
    (h : |a.value| ≤ |b.value|) : a.raw ≤ b.raw := by
  cases b with
  | int n => exact (raw_le hzero).trans h
  | float y =>
    have hy := significand_pos hzero'
    rw [value, y.abs_value] at h
    cases a with
    | int n =>
      obtain ⟨hlow, hhigh⟩ := ha
      have hcast : |(n : ℚ)| = (n.natAbs : Nat) := by rw [Nat.cast_natAbs, Int.cast_abs]
      rw [value, hcast] at h
      rw [raw, hcast]
      exact Double.natCast_le_raw (by omega) hy h
    | float x =>
      rw [value, x.abs_value] at h
      exact Double.raw_mono (significand_pos hzero) hy h

theorem abs_rank_mono (ha : a.Fits) (hb : b.Fits) (h : |a.value| ≤ |b.value|) :
    |a.rank| ≤ |b.rank| := by
  rcases eq_or_ne a.value 0 with hzero | hzero
  · rw [rank_zero hzero, abs_zero]
    exact abs_nonneg _
  have hzero' : b.value ≠ 0 := by
    rw [← abs_pos]
    exact (abs_pos.mpr hzero).trans_le h
  have hraw := raw_mono ha hzero hzero' h
  rcases toDecimal?_reading ha hzero with
    ⟨hlarge, hnone⟩ | ⟨hsmall, k, p, d, hk, hvalue, hd, hdigits⟩
  · rcases toDecimal?_reading hb hzero' with ⟨-, hnone'⟩ | ⟨hsmall', -⟩
    · rw [rank, rank, hnone, hnone']
      exact h
    · linarith
  rcases toDecimal?_reading hb hzero' with
    ⟨hlarge', hnone'⟩ | ⟨hsmall', k', p', d', hk', hvalue', hd', hdigits'⟩
  · rw [rank, rank, hd, hnone']
    exact d.abs_value_lt.le.trans (hlarge'.trans (raw_le hzero'))
  · rw [rank, rank, hd, hd']
    dsimp only
    rw [hdigits, hdigits', abs_sign_mul, abs_sign_mul, abs_of_nonneg (Decimal.fraction_nonneg _),
      abs_of_nonneg (Decimal.fraction_nonneg _)]
    rw [hvalue, hvalue'] at hraw
    exact Decimal.settled_mono hk hk' hraw

theorem rank_eq (ha : a.Fits) : a.rank = sign a.negative * |a.rank| := by
  rcases eq_or_ne a.value 0 with hzero | hzero
  · rw [rank_zero hzero, abs_zero, mul_zero]
  rcases toDecimal?_reading ha hzero with ⟨-, hnone⟩ | ⟨-, k, p, d, -, -, hd, hdigits⟩
  · rw [rank, hnone]
    exact a.value_eq
  · rw [rank, hd]
    dsimp only
    rw [hdigits, abs_sign_mul, abs_of_nonneg (Decimal.fraction_nonneg _)]

theorem rank_mono (ha : a.Fits) (hb : b.Fits) (h : a.value ≤ b.value) : a.rank ≤ b.rank := by
  rw [value_eq a, value_eq b] at h
  rw [rank_eq ha, rank_eq hb]
  refine sign_mul_mono (abs_nonneg _) (abs_nonneg _) (abs_nonneg _) (abs_nonneg _)
    (abs_rank_mono ha hb) (abs_rank_mono hb ha) ?_ ?_ h
  · exact fun hzero => abs_eq_zero.mpr (rank_zero (abs_eq_zero.mp hzero))
  · exact fun hzero => abs_eq_zero.mpr (rank_zero (abs_eq_zero.mp hzero))

/-! ## The comparison -/

theorem large_of_toDecimal?_eq_none (ha : a.Fits) (hnone : a.toDecimal? = none) :
    a.value ≠ 0 ∧ 2 ^ 96 ≤ a.raw := by
  have hzero : a.value ≠ 0 := by
    intro hzero
    obtain ⟨d, hd, -⟩ := toDecimal?_zero hzero
    rw [hd] at hnone
    cases hnone
  rcases toDecimal?_reading ha hzero with ⟨hlarge, -⟩ | ⟨-, k, p, d, -, -, hd, -⟩
  · exact ⟨hzero, hlarge⟩
  · rw [hd] at hnone
    cases hnone

theorem ofInt_below {n : Int} (hn : Fits (.int n)) :
    ∃ y, Binary64.ofInt n = .finite y ∧ |y.value| < 2 ^ 96 := by
  obtain ⟨hlow, hhigh⟩ := hn
  obtain ⟨y, hy, hnear⟩ := Binary64.ofInt_near (n := n) (by omega)
  have hle : |(n : ℚ)| ≤ 2 ^ 64 := by
    rw [← Int.cast_abs]
    exact_mod_cast abs_le.mpr ⟨by omega, by omega⟩
  have htriangle := abs_sub_abs_le_abs_sub y.value n
  exact ⟨y, hy, by linarith⟩

theorem toBinary64_below {d : Decimal} (ha : a.Fits) (hb : b.Fits) (hd : a.toDecimal? = some d)
    (hnone : b.toDecimal? = none) : ∃ y, a.toBinary64 = .finite y ∧ |y.value| < |b.value| := by
  obtain ⟨hzero, hlarge⟩ := large_of_toDecimal?_eq_none hb hnone
  have hbound := hlarge.trans (raw_le hzero)
  cases a with
  | int n =>
    obtain ⟨y, hy, hvalue⟩ := ofInt_below ha
    exact ⟨y, hy, hvalue.trans_le hbound⟩
  | float x =>
    refine ⟨x, rfl, ?_⟩
    by_contra! hle
    have hzero' : (float x).value ≠ 0 := by
      rw [← abs_pos]
      exact (abs_pos.mpr hzero).trans_le hle
    -- otherwise its expansion would not fit 96 bits either
    have hraw := hlarge.trans (raw_mono hb hzero hzero' hle)
    rcases toDecimal?_reading ha hzero' with ⟨-, hnone'⟩ | ⟨hsmall, -⟩
    · rw [hd] at hnone'
      cases hnone'
    · linarith

theorem abs_rank_below {d : Decimal} (hb : b.Fits) (hd : a.toDecimal? = some d)
    (hnone : b.toDecimal? = none) : |a.rank| < |b.value| := by
  obtain ⟨hzero, hlarge⟩ := large_of_toDecimal?_eq_none hb hnone
  rw [rank, hd]
  exact d.abs_value_lt.trans_le (hlarge.trans (raw_le hzero))

theorem toBinary64_of_none (ha : a.Fits) (hnone : a.toDecimal? = none) :
    ∃ x, a.toBinary64 = .finite x ∧ x.value = a.value ∧ a.rank = a.value := by
  have hrank : a.rank = a.value := by rw [rank, hnone]
  cases a with
  | int n =>
    obtain ⟨hlow, hhigh⟩ := ha
    obtain ⟨-, hlarge⟩ := large_of_toDecimal?_eq_none (a := .int n) ⟨hlow, hhigh⟩ hnone
    rw [raw] at hlarge
    have hlarge : 2 ^ 96 ≤ |n| := by exact_mod_cast hlarge
    have habs : |n| < 2 ^ 96 := abs_lt.mpr ⟨by omega, by omega⟩
    omega
  | float x => exact ⟨x, rfl, rfl, hrank⟩

/-- The order of numbers is the order of their ranks, whichever way a pair is compared. -/
theorem cmp?_eq_compare (ha : a.Fits) (hb : b.Fits) :
    a.cmp? b = some (compare a.rank b.rank) := by
  unfold cmp?
  cases hda : a.toDecimal? with
  | some d =>
    cases hdb : b.toDecimal? with
    | some e =>
      have hranks : a.rank = d.value ∧ b.rank = e.value := by simp [rank, hda, hdb]
      rw [hranks.1, hranks.2, ← Decimal.cmp_eq_compare]
    | none =>
      obtain ⟨x, hx, hbelow⟩ := toBinary64_below ha hb hda hdb
      obtain ⟨y, hy, hvalue, hrank⟩ := toBinary64_of_none hb hdb
      have hsame := compare_of_abs_lt hbelow (abs_rank_below hb hda hdb)
      dsimp only
      rw [hx, hy, Binary64.cmp?, Double.cmp_eq_compare, hvalue, hrank, hsame.2]
  | none =>
    obtain ⟨x, hx, hvalue, hrank⟩ := toBinary64_of_none ha hda
    cases hdb : b.toDecimal? with
    | some e =>
      obtain ⟨y, hy, hbelow⟩ := toBinary64_below hb ha hdb hda
      have hsame := compare_of_abs_lt hbelow (abs_rank_below ha hdb hda)
      dsimp only
      rw [hx, hy, Binary64.cmp?, Double.cmp_eq_compare, hvalue, hrank, hsame.1]
    | none =>
      obtain ⟨y, hy, hvalue', hrank'⟩ := toBinary64_of_none hb hdb
      dsimp only
      rw [hx, hy, Binary64.cmp?, Double.cmp_eq_compare, hvalue, hvalue', hrank, hrank']

theorem cmp?_eq_some_eq_iff (ha : a.Fits) (hb : b.Fits) :
    a.cmp? b = some .eq ↔ a.rank = b.rank := by
  rw [cmp?_eq_compare ha hb, Option.some.injEq, compare_eq_iff_eq]

theorem cmp?_of_same (h : a.same b = true) : a.cmp? b = some .eq := by
  cases a with
  | int m =>
    cases b with
    | int n =>
      obtain rfl : m = n := by simpa [same] using h
      exact cmp?_self _
    | float y => cases h
  | float x =>
    cases b with
    | int n => cases h
    | float y =>
      have hcmp : x.cmp y = .eq := by simpa [same, Double.sameValue] using h
      have hvalue : (float x).value = (float y).value := by
        rw [Double.cmp_eq_compare] at hcmp
        exact compare_eq_iff_eq.mp hcmp
      have hx : Fits (.float x) := trivial
      have hy : Fits (.float y) := trivial
      rw [cmp?_eq_some_eq_iff hx hy]
      exact (rank_mono hx hy hvalue.le).antisymm (rank_mono hy hx hvalue.ge)

/-- The comparison of numbers is a total preorder that never inverts the order of values. -/
theorem comparison_total_preorder {c : Number} (ha : a.Fits) (hb : b.Fits) (hc : c.Fits) :
    (∃ order, a.cmp? b = some order) ∧ a.cmp? a = some .eq ∧
      b.cmp? a = (a.cmp? b).map Ordering.swap ∧
      (a.cmp? b ≠ some .gt → b.cmp? c ≠ some .gt → a.cmp? c ≠ some .gt) ∧
      (a.cmp? b = some .lt → a.value < b.value) := by
  rw [cmp?_eq_compare ha hb, cmp?_eq_compare ha ha, cmp?_eq_compare hb ha, cmp?_eq_compare hb hc,
    cmp?_eq_compare ha hc]
  refine ⟨⟨_, rfl⟩, congrArg some (compare_eq_iff_eq.mpr rfl), ?_, ?_, ?_⟩
  · exact congrArg some Std.OrientedCmp.eq_swap
  · intro hab hbc
    have hab : a.rank ≤ b.rank := compare_le_iff_le.mp fun h => hab (congrArg some h)
    have hbc : b.rank ≤ c.rank := compare_le_iff_le.mp fun h => hbc (congrArg some h)
    intro hac
    exact compare_le_iff_le.mpr (hab.trans hbc) (Option.some.inj hac)
  · intro hlt
    have hrank : a.rank < b.rank := compare_lt_iff_lt.mp (Option.some.inj hlt)
    by_contra! hle
    exact absurd (rank_mono hb ha hle) (not_le.mpr hrank)

/-- The greatest integer, the double that it rounds to, and a double that has no decimal. -/
theorem comparison_total_preorder_mixed :
    let a := Number.int (2 ^ 64 - 1)
    let b := Number.float ⟨false, 2 ^ 52, 12, by decide⟩
    let c := Number.float ⟨false, 2 ^ 52, 45, by decide⟩
    (a.Fits ∧ b.Fits ∧ c.Fits) ∧ c.toDecimal? = none ∧ a.cmp? c ≠ some .gt ∧
      a.value < b.value := by
  intro a b c
  have ha : a.Fits := ⟨by decide, by decide⟩
  have hb : b.Fits := trivial
  have hc : c.Fits := trivial
  obtain ⟨-, -, -, htrans, hlt⟩ := comparison_total_preorder ha hb hc
  have hab : a.cmp? b = some .lt := by decide
  have hbc : b.cmp? c = some .lt := by decide
  refine ⟨⟨ha, hb, hc⟩, by decide, htrans ?_ ?_, hlt hab⟩
  · rw [hab]
    decide
  · rw [hbc]
    decide

end Number
end StateCheck
