import StateCheck.Proofs.Number.Value
/-!
The double nearest to an integer.

For integers of 128 bits, which include all sums of those in documents, it is off by at most one
part in `2 ^ 53` (`Binary64.ofInt_near`).
-/
namespace StateCheck
set_option autoImplicit false

theorem roundHalfEven_near {d : Nat} (n : Nat) (hd : 0 < d) :
    |(roundHalfEven n d : ℚ) - n / d| ≤ 1 / 2 := by
  have hmod : n % d < d := Nat.mod_lt n hd
  have hn : d * (n / d) + n % d = n := Nat.div_add_mod n d
  have hnear : 2 * n ≤ 2 * (d * roundHalfEven n d) + d ∧
      2 * (d * roundHalfEven n d) ≤ 2 * n + d := by
    unfold roundHalfEven
    dsimp only
    split
    · omega
    · split
      · rw [Nat.mul_succ]
        omega
      · -- a half goes to whichever neighbour is even
        rcases Nat.mod_two_eq_zero_or_one (n / d) with h | h
        · rw [h, Nat.add_zero]
          omega
        · rw [h, Nat.mul_succ]
          omega
  have hd' : (0 : ℚ) < d := by exact_mod_cast hd
  have hlow : 2 * (n : ℚ) ≤ 2 * (d * roundHalfEven n d) + d := by exact_mod_cast hnear.1
  have hhigh : 2 * (d * (roundHalfEven n d : ℚ)) ≤ 2 * n + d := by exact_mod_cast hnear.2
  have hdiv : (n : ℚ) = d * (n / d) := by field_simp
  rw [abs_le]
  constructor <;> nlinarith

theorem roundHalfEven_bounds (n d : Nat) :
    n / d ≤ roundHalfEven n d ∧ roundHalfEven n d ≤ n / d + 1 := by
  unfold roundHalfEven
  dsimp only
  split
  · omega
  · split <;> omega

theorem roundHalfEven_one (n : Nat) : roundHalfEven n 1 = n := by
  simp [roundHalfEven, Nat.mod_one]

theorem abs_sign_mul_sub (negative : Bool) (x y : ℚ) :
    |sign negative * x - sign negative * y| = |x - y| := by
  rw [← mul_sub, abs_sign_mul]

namespace Binary64

variable {n k : Nat} {e : Int}

theorem neg_ofRatio (k d : Nat) : -ofRatio false k d = ofRatio true k d := by
  change (ofRatio false k d).neg = _
  unfold ofRatio
  dsimp only
  split
  · rfl
  · split <;> split <;> rfl

theorem scaled_value (n : Nat) (e : Int) :
    0 < (scaled n 1 e).2 ∧ ((scaled n 1 e).1 : ℚ) / (scaled n 1 e).2 = n / 2 ^ e := by
  unfold scaled
  split
  · next he =>
    rw [Nat.shiftLeft_eq, one_mul]
    refine ⟨by positivity, ?_⟩
    rw [Nat.cast_pow, Nat.cast_ofNat, ← zpow_natCast, Int.toNat_of_nonneg he]
  · next he =>
    refine ⟨one_pos, ?_⟩
    rw [Nat.shiftLeft_eq, Nat.cast_one, div_one, Nat.cast_mul, Nat.cast_pow, Nat.cast_ofNat,
      ← zpow_natCast, Int.toNat_of_nonneg (by omega), zpow_neg, div_eq_mul_inv]

theorem scaled_quotient (hn : n ≠ 0) (h : e + k = n.log2) :
    2 ^ k ≤ (scaled n 1 e).1 / (scaled n 1 e).2 ∧
      (scaled n 1 e).1 / (scaled n 1 e).2 < 2 ^ (k + 1) := by
  have hlow : 2 ^ n.log2 ≤ n := Nat.log2_self_le hn
  have hhigh : n < 2 ^ (n.log2 + 1) := Nat.lt_log2_self
  unfold scaled
  split
  · next he =>
    have hlog : n.log2 = k + e.toNat := by omega
    have hpos : 0 < 2 ^ e.toNat := by positivity
    rw [Nat.shiftLeft_eq, one_mul, Nat.le_div_iff_mul_le hpos, Nat.div_lt_iff_lt_mul hpos]
    rw [hlog] at hlow hhigh
    exact ⟨by rwa [← pow_add], by rwa [← pow_add, Nat.add_right_comm]⟩
  · next he =>
    have hlog : n.log2 + (-e).toNat = k := by omega
    have hpos : 0 < 2 ^ (-e).toNat := by positivity
    rw [Nat.shiftLeft_eq, Nat.div_one, ← hlog, Nat.add_right_comm, pow_add _ n.log2,
      pow_add _ (n.log2 + 1)]
    exact ⟨Nat.mul_le_mul_right _ hlow, (Nat.mul_lt_mul_right hpos).mpr hhigh⟩

theorem exponentFor_whole (hn : n ≠ 0) : exponentFor n 1 = (n.log2 : Int) - 52 := by
  have hone : Nat.log2 1 = 0 := by decide
  obtain ⟨hlow, -⟩ := scaled_quotient (e := (n.log2 : Int) - 53) hn (k := 53) (by omega)
  have hmax : max ((n.log2 : Int) - (0 : Nat) - 53) (-1074) = (n.log2 : Int) - 53 := by omega
  rw [exponentFor, hone, hmax, pow2_eq]
  dsimp only
  rw [if_neg (by omega)]
  omega

theorem mul_unit_near {m : ℚ} (hn : n ≠ 0) (h : |m - n / 2 ^ ((n.log2 : Int) - 52)| ≤ 1 / 2) :
    |m * 2 ^ ((n.log2 : Int) - 52) - n| ≤ n / 2 ^ 53 := by
  have hunit : (0 : ℚ) < 2 ^ ((n.log2 : Int) - 52) := by positivity
  have hlog : (2 : ℚ) ^ ((n.log2 : Int) - 52) * 2 ^ 52 ≤ n := by
    have hexp : (n.log2 : Int) - 52 + (52 : Nat) = (n.log2 : Nat) := by omega
    rw [← zpow_natCast (2 : ℚ) 52, ← zpow_add₀ two_ne_zero, hexp, zpow_natCast]
    exact_mod_cast Nat.log2_self_le hn
  have hsplit : m * 2 ^ ((n.log2 : Int) - 52) - n =
      (m - n / 2 ^ ((n.log2 : Int) - 52)) * 2 ^ ((n.log2 : Int) - 52) := by
    field_simp
  rw [hsplit, abs_mul, abs_of_pos hunit, le_div_iff₀ (by positivity)]
  nlinarith

theorem ofRatio_whole (negative : Bool) (hn : n ≠ 0) (hlog : n.log2 ≤ 1022) :
    ∃ x, ofRatio negative n 1 = .finite x ∧ |x.value - sign negative * n| ≤ n / 2 ^ 53 := by
  obtain ⟨hlow, hhigh⟩ := scaled_quotient (e := (n.log2 : Int) - 52) hn (k := 52) (by omega)
  obtain ⟨hpos, hvalue⟩ := scaled_value n ((n.log2 : Int) - 52)
  have hnear := roundHalfEven_near (scaled n 1 ((n.log2 : Int) - 52)).1 hpos
  obtain ⟨hdown, hup⟩ := roundHalfEven_bounds (scaled n 1 ((n.log2 : Int) - 52)).1
    (scaled n 1 ((n.log2 : Int) - 52)).2
  rw [hvalue] at hnear
  rw [ofRatio, if_neg hn, exponentFor_whole hn]
  dsimp only
  generalize roundHalfEven (scaled n 1 ((n.log2 : Int) - 52)).1
    (scaled n 1 ((n.log2 : Int) - 52)).2 = m at hdown hup hnear ⊢
  have hclose := mul_unit_near hn hnear
  have hm : 2 ^ 52 ≤ m ∧ m ≤ 2 ^ 53 := by omega
  rcases hm.2.lt_or_eq with hlt | (hcarry : m = pow2 53)
  · have hfull : m ≠ pow2 53 := hlt.ne
    rw [if_neg hfull]
    dsimp only
    rw [dif_pos ⟨hlt, by omega, by omega, .inl hm.1⟩]
    refine ⟨_, rfl, ?_⟩
    rw [Double.value_eq, abs_sign_mul_sub]
    exact hclose
  · rw [if_pos hcarry]
    dsimp only
    rw [dif_pos ⟨by decide, by omega, by omega, .inl le_rfl⟩]
    refine ⟨_, rfl, ?_⟩
    have hhalf : ((pow2 52 : Nat) : ℚ) * 2 ^ ((n.log2 : Int) - 52 + 1) =
        m * 2 ^ ((n.log2 : Int) - 52) := by
      rw [hcarry, pow2_eq, pow2_eq, zpow_add_one₀ two_ne_zero]
      push_cast
      ring
    rw [Double.value_eq, abs_sign_mul_sub, hhalf]
    exact hclose

/-- The double of an integer is off by at most one part in `2 ^ 53`. -/
theorem ofInt_near {n : Int} (h : n.natAbs < 2 ^ 128) :
    ∃ x, ofInt n = .finite x ∧ |x.value - n| ≤ |(n : ℚ)| / 2 ^ 53 := by
  rcases eq_or_ne n 0 with rfl | hzero
  · exact ⟨.zero false, rfl, by simp [Double.value_eq, Double.zero]⟩
  have habs : n.natAbs ≠ 0 := by omega
  have hlog : n.natAbs.log2 < 128 := (Nat.log2_lt habs).mpr h
  obtain ⟨x, hx, hnear⟩ := ofRatio_whole (n < 0) habs (by omega)
  rw [sign_mul_natAbs, Nat.cast_natAbs, Int.cast_abs] at hnear
  exact ⟨x, hx, hnear⟩

end Binary64
end StateCheck
