import Mathlib.Algebra.Order.Field.Power
import Mathlib.Data.Rat.Cast.Order
import Mathlib.Order.Compare
import Mathlib.Tactic.FieldSimp
import Mathlib.Tactic.Linarith
import Mathlib.Tactic.NormNum
import Mathlib.Tactic.Positivity
import Mathlib.Tactic.Ring
import StateCheck.Number.Basic
/-!
The exact values of decimals, doubles and numbers.

Both orders, that of decimals and that of doubles, are the order of values
(`Decimal.cmp_eq_compare`, `Double.cmp_eq_compare`). So any two numbers are comparable, and changing
their sides reverses their order (`Number.exists_cmp?`, `Number.cmp?_swap`).
-/
namespace StateCheck
set_option autoImplicit false

theorem pow2_eq (k : Nat) : pow2 k = 2 ^ k := rfl

theorem pow10_eq (k : Nat) : pow10 k = 10 ^ k := rfl

theorem compare_intCast_mul {a b : Int} {x y u : ℚ} (hu : 0 < u)
    (hx : (a : ℚ) = x * u) (hy : (b : ℚ) = y * u) : compare a b = compare x y := by
  have hlt : ∀ {i j : Int} {p q : ℚ}, (i : ℚ) = p * u → (j : ℚ) = q * u → (i < j ↔ p < q) := by
    intro i j p q hi hj
    rw [← Int.cast_lt (R := ℚ), hi, hj, mul_lt_mul_iff_left₀ hu]
  rcases lt_trichotomy a b with h | rfl | h
  · rw [compare_lt_iff_lt.mpr h, compare_lt_iff_lt.mpr ((hlt hx hy).mp h)]
  · have heq : x = y := mul_right_cancel₀ hu.ne' (hx.symm.trans hy)
    rw [heq, compare_eq_iff_eq.mpr rfl, compare_eq_iff_eq.mpr rfl]
  · rw [compare_gt_iff_gt.mpr h, compare_gt_iff_gt.mpr ((hlt hy hx).mp h)]

def sign (negative : Bool) : ℚ := if negative then -1 else 1

theorem sign_mul_natAbs (n : Int) : sign (n < 0) * (n.natAbs : ℚ) = n := by
  rw [Nat.cast_natAbs, Int.cast_abs]
  rcases lt_or_ge n 0 with hn | hn
  · have hneg : (n : ℚ) ≤ 0 := by exact_mod_cast hn.le
    simp [sign, hn, abs_of_nonpos hneg]
  · have hpos : (0 : ℚ) ≤ n := by exact_mod_cast hn
    simp [sign, Int.not_lt.mpr hn, abs_of_nonneg hpos]

theorem abs_sign_mul (negative : Bool) (x : ℚ) : |sign negative * x| = |x| := by
  cases negative <;> simp [sign]

/-! ## Decimals -/

namespace Decimal

def value (x : Decimal) : ℚ := x.signed / 10 ^ x.scale

theorem value_eq (x : Decimal) : x.value = sign x.negative * (x.mantissa / 10 ^ x.scale) := by
  rw [value, signed, sign]
  split <;> simp [neg_div]

theorem abs_value_lt (d : Decimal) : |d.value| < 2 ^ 96 := by
  have hmantissa : (d.mantissa : ℚ) < 2 ^ 96 := by exact_mod_cast d.mantissa_lt
  have hscale : (1 : ℚ) ≤ 10 ^ d.scale := one_le_pow₀ (by norm_num)
  rw [value_eq, abs_sign_mul, abs_of_nonneg (by positivity), div_lt_iff₀ (by positivity)]
  nlinarith

theorem cmp_eq_compare (x y : Decimal) : x.cmp y = compare x.value y.value := by
  have hside : ∀ u v : Decimal, ((u.signed * pow10 (v.scale - u.scale) : Int) : ℚ) =
      u.value * 10 ^ max u.scale v.scale := by
    intro u v
    have hmax : max u.scale v.scale = u.scale + (v.scale - u.scale) := by omega
    rw [value, hmax, pow_add, pow10_eq]
    push_cast
    field_simp
  refine compare_intCast_mul (u := 10 ^ max x.scale y.scale) (by positivity) (hside x y) ?_
  rw [max_comm]
  exact hside y x

end Decimal

/-! ## Doubles -/

namespace Double

def value (x : Double) : ℚ := x.signed * 2 ^ x.exponent

theorem value_eq (x : Double) : x.value = sign x.negative * (x.significand * 2 ^ x.exponent) := by
  rw [value, signed, sign]
  split <;> simp

theorem cmp_eq_compare (x y : Double) : x.cmp y = compare x.value y.value := by
  have hside : ∀ (u : Double) (e : Int), e ≤ u.exponent →
      ((u.signed * pow2 (u.exponent - e).toNat : Int) : ℚ) = u.value * 2 ^ (-e) := by
    intro u e he
    have hsub : ((u.exponent - e).toNat : Int) = u.exponent + -e := by omega
    rw [value, mul_assoc, ← zpow_add₀ two_ne_zero, ← hsub, zpow_natCast, pow2_eq]
    push_cast
    rfl
  exact compare_intCast_mul (u := 2 ^ (-min x.exponent y.exponent)) (by positivity)
    (hside x _ (min_le_left _ _)) (hside y _ (min_le_right _ _))

end Double

namespace Binary64

theorem ofRatio_ne_nan (negative : Bool) (n d : Nat) : ofRatio negative n d ≠ .nan := by
  unfold ofRatio
  dsimp only
  split
  · nofun
  · split <;> split <;> nofun

theorem exists_cmp? {x y : Binary64} (hx : x ≠ .nan) (hy : y ≠ .nan) : ∃ o, x.cmp? y = some o := by
  cases x with
  | nan => exact absurd rfl hx
  | _ =>
    cases y with
    | nan => exact absurd rfl hy
    | _ => exact ⟨_, rfl⟩

theorem cmp?_swap (x y : Binary64) : y.cmp? x = (x.cmp? y).map Ordering.swap := by
  cases x with
  | finite a =>
    cases y with
    | finite b =>
      rw [cmp?, cmp?, Double.cmp_eq_compare, Double.cmp_eq_compare]
      exact congrArg some Std.OrientedCmp.eq_swap
    | infinite t => cases t <;> rfl
    | nan => rfl
  | infinite s =>
    cases y with
    | finite b => cases s <;> rfl
    | infinite t => cases s <;> cases t <;> rfl
    | nan => rfl
  | nan => cases y <;> rfl

end Binary64

/-! ## Numbers -/

namespace Number

def value : Number → ℚ
  | .int n => n
  | .float x => x.value

theorem toBinary64_ne_nan (a : Number) : a.toBinary64 ≠ .nan := by
  cases a with
  | int n => exact Binary64.ofRatio_ne_nan _ _ _
  | float x => nofun

theorem exists_cmp? (a b : Number) : ∃ o, a.cmp? b = some o := by
  unfold cmp?
  split
  · exact ⟨_, rfl⟩
  · exact Binary64.exists_cmp? a.toBinary64_ne_nan b.toBinary64_ne_nan

theorem cmp?_swap (a b : Number) : b.cmp? a = (a.cmp? b).map Ordering.swap := by
  unfold cmp?
  cases a.toDecimal? with
  | none => cases b.toDecimal? <;> exact Binary64.cmp?_swap _ _
  | some x =>
    cases b.toDecimal? with
    | none => exact Binary64.cmp?_swap _ _
    | some y =>
      dsimp only
      rw [Decimal.cmp_eq_compare, Decimal.cmp_eq_compare]
      exact congrArg some Std.OrientedCmp.eq_swap

theorem cmp?_self (a : Number) : a.cmp? a = some .eq := by
  obtain ⟨o, ho⟩ := a.exists_cmp? a
  have hswap := a.cmp?_swap a
  rw [ho] at hswap ⊢
  cases o with
  | eq => rfl
  | lt => cases hswap
  | gt => cases hswap

theorem cmp?_eq_symm {a b : Number} (h : a.cmp? b = some .eq) : b.cmp? a = some .eq := by
  rw [cmp?_swap, h]
  rfl

end Number
end StateCheck
