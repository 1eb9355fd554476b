import StateCheck.Proofs.Intrinsic.Calls
import StateCheck.Proofs.Number.Order
/-!
Sums of integers.

The decimals of integers have no places, so they are added exactly (`Decimal.add?_whole`). What a
call returns is the integer again if it is one of 63 bits and a sign, and else the double nearest
to it (`Intrinsic.evaluate_sum`), although the integers of documents have up to 64 bits.
-/
namespace StateCheck
set_option autoImplicit false

/-! ## Decimals of integers -/

namespace Decimal

variable {m n : Int}

def whole (n : Int) (h : n.natAbs < pow2 96) : Decimal :=
  { (default : Decimal) with negative := n < 0, mantissa := n.natAbs, mantissa_lt := h }

theorem ofInt?_eq (h : n.natAbs < pow2 96) : ofInt? n = some (whole n h) :=
  dif_pos ⟨h, by decide⟩

theorem signed_whole (h : n.natAbs < pow2 96) : (whole n h).signed = n := by
  rw [signed, whole]
  rcases lt_or_ge n 0 with hn | hn
  · simp only [hn, decide_true, if_true]
    omega
  · simp only [Int.not_lt.mpr hn, decide_false, Bool.false_eq_true, if_false]
    omega

theorem add?_whole (hm : m.natAbs < pow2 96) (hn : n.natAbs < pow2 96)
    (h : (m + n).natAbs < pow2 96) : (whole m hm).add? (whole n hn) = some (whole (m + n) h) := by
  have haligned : (whole m hm).aligned (whole n hn) = (m, n) := by
    rw [aligned, signed_whole, signed_whole]
    simp [pow10_eq, whole]
  have hsum : ∀ s : Int, fit? (s < 0) s.natAbs 0 = ofInt? s := by
    intro s
    have hrange : List.range (0 + 1) = [0] := rfl
    have hunit : pow10 0 = 1 := rfl
    rw [fit?, hrange, List.findSome?_cons, hunit, roundHalfEven_one, ofInt?]
    cases mk? (s < 0) s.natAbs 0 <;> rfl
  rw [add?, haligned, ← ofInt?_eq]
  exact hsum (m + n)

theorem normalize_whole (h : n.natAbs < pow2 96) : (whole n h).normalize = whole n h := by
  have htrim : trimZeros (whole n h).scale (whole n h).mantissa = (n.natAbs, 0) := rfl
  rw [normalize, htrim]
  dsimp only
  split
  · next hzero =>
    obtain rfl := Int.natAbs_eq_zero.mp hzero
    rfl
  · rw [mk?, dif_pos ⟨h, by decide⟩]
    rfl

theorem toInt64?_whole (h : n.natAbs < pow2 96) :
    (whole n h).toInt64? = if -2 ^ 63 ≤ n ∧ n < 2 ^ 63 then some n else none := by
  have hwhole : (((whole n h).mantissa : Int) / pow10 (whole n h).scale) = (whole n h).mantissa :=
    Int.ediv_one _
  have hsigned := signed_whole h
  rw [signed] at hsigned
  simp only [toInt64?, hwhole, hsigned]
  rfl

theorem toBinary64_whole (h : n.natAbs < pow2 96) :
    (whole n h).toBinary64 = Binary64.ofInt n := by
  have hwhole : (whole n h).mantissa / pow10 (whole n h).scale = n.natAbs := Nat.div_one _
  have hscale : (whole n h).scale = 0 := rfl
  rw [toBinary64, Binary64.ofInt]
  dsimp only
  rw [hwhole, hscale, decide_eq_true (rfl : 0 = 0), Bool.true_or, if_pos rfl, Binary64.ofNat]
  rcases lt_or_ge n 0 with hn | hn
  · have hneg : ((whole n h).negative && decide ((whole n h).mantissa ≠ 0)) = true := by
      simp [whole, hn, hn.ne]
    rw [if_pos hneg, Binary64.neg_ofRatio, decide_eq_true hn]
  · have hpos : ((whole n h).negative && decide ((whole n h).mantissa ≠ 0)) = false := by
      simp [whole, hn]
    rw [hpos, if_neg Bool.false_ne_true, decide_eq_false (Int.not_lt.mpr hn)]

end Decimal

/-! ## Sums -/

namespace Number

variable {a b : Int}

theorem ofDecimal_whole {n : Int} (h : n.natAbs < pow2 96) : ofDecimal (Decimal.whole n h) =
    if -2 ^ 63 ≤ n ∧ n < 2 ^ 63 then some (.int n) else ofBinary64? (Binary64.ofInt n) := by
  have hscale : (Decimal.whole n h).scale = 0 := rfl
  rw [ofDecimal, Decimal.normalize_whole]
  rw [if_pos hscale, Decimal.toInt64?_whole, Decimal.toBinary64_whole]
  by_cases hn : -2 ^ 63 ≤ n ∧ n < 2 ^ 63
  · rw [if_pos hn, if_pos hn]
  · rw [if_neg hn, if_neg hn]

/-- Integers of 64 bits have a sum, which is an integer of 64 bits with a sign or a double. -/
theorem add?_int (ha : Fits (.int a)) (hb : Fits (.int b)) : (Number.int a).add? (.int b) =
    .ok (if -2 ^ 63 ≤ a + b ∧ a + b < 2 ^ 63 then some (.int (a + b))
      else ofBinary64? (Binary64.ofInt (a + b))) := by
  obtain ⟨halow, hahigh⟩ := ha
  obtain ⟨hblow, hbhigh⟩ := hb
  have hbound : pow2 96 = 2 ^ 96 := pow2_eq 96
  have hsum : (a + b).natAbs < pow2 96 := by omega
  rw [add?, toDecimal?, toDecimal?, Decimal.ofInt?_eq (by omega), Decimal.ofInt?_eq (by omega)]
  dsimp only
  rw [Decimal.add?_whole _ _ hsum]
  dsimp only
  rw [ofDecimal_whole]

end Number

/-! ## The call -/

namespace Intrinsic

variable {texts : List String} {args : List Arg} {docs : Documents} {e e' : Entropy} {a b : Int}

def sumName : String := "States.MathAdd"

theorem isName_sum : IsName sumName :=
  ⟨List.all_eq_true.mp (by decide +kernel), "MathAdd".toList, rfl⟩

theorem evaluate_sumText (htexts : List.Forall₂ Stands texts args) {x y : Json}
    (hvalues : evalArgs docs args e = .ok ([x, y], e')) :
    evaluate (callText sumName texts) docs e =
      ((sum x y).mapError (EvalError.intrinsicFailure sumName)).map fun v => (v, e') := by
  have hfunction : Function.ofName? sumName = some .mathAdd := by decide
  exact evaluate_valueText isName_sum (by decide) hfunction (by decide) (by decide) htexts hvalues

/-- The sum of two integers of a document is a number: the integer itself if it has 64 bits with a
sign, and else a double that is off by at most one part in `2 ^ 53`. -/
theorem evaluate_sum (ha : Number.Fits (.int a)) (hb : Number.Fits (.int b))
    (htexts : List.Forall₂ Stands texts args)
    (hvalues : evalArgs docs args e = .ok ([.num (.int a), .num (.int b)], e')) :
    ∃ n, sum (.num (.int a)) (.num (.int b)) = .ok (.num n) ∧
      evaluate (callText sumName texts) docs e = .ok (.num n, e') ∧
      (-2 ^ 63 ≤ a + b ∧ a + b < 2 ^ 63 → n = .int (a + b)) ∧
      (¬(-2 ^ 63 ≤ a + b ∧ a + b < 2 ^ 63) →
        ∃ x, n = .float x ∧ |x.value - (a + b)| ≤ |(a + b : ℚ)| / 2 ^ 53) := by
  have hevaluate : ∀ n, sum (.num (.int a)) (.num (.int b)) = .ok (.num n) →
      evaluate (callText sumName texts) docs e = .ok (.num n, e') := by
    intro n hsum
    rw [evaluate_sumText htexts hvalues, hsum]
    rfl
  have hadd := Number.add?_int ha hb
  by_cases hrange : -2 ^ 63 ≤ a + b ∧ a + b < 2 ^ 63
  · have hsum : sum (.num (.int a)) (.num (.int b)) = .ok (.num (.int (a + b))) := by
      rw [sum, hadd, if_pos hrange]
    exact ⟨_, hsum, hevaluate _ hsum, fun _ => rfl, fun h => absurd hrange h⟩
  · obtain ⟨halow, hahigh⟩ := ha
    obtain ⟨hblow, hbhigh⟩ := hb
    obtain ⟨x, hx, hnear⟩ := Binary64.ofInt_near (n := a + b) (by omega)
    have hsum : sum (.num (.int a)) (.num (.int b)) = .ok (.num (.float x)) := by
      rw [sum, hadd, if_neg hrange, hx]
      rfl
    refine ⟨_, hsum, hevaluate _ hsum, fun h => absurd h hrange, fun _ => ⟨x, rfl, ?_⟩⟩
    exact_mod_cast hnear

/-- An integer without sign and one with, whose sum is the greatest that stays an integer. -/
theorem evaluate_sum_limit :
    callText sumName ["18446744073709551615", "-9223372036854775808"] =
      "States.MathAdd(18446744073709551615, -9223372036854775808)" ∧
    evaluate (callText sumName ["18446744073709551615", "-9223372036854775808"])
      ⟨.obj [], .null⟩ (.seeded 0) = .ok (.num (.int 9223372036854775807), .seeded 0) := by
  have hleft : Stands "18446744073709551615" (.literal (.num (.int 18446744073709551615))) :=
    stands_of_readArg (n := 1) rfl
  have hright : Stands "-9223372036854775808" (.literal (.num (.int (-9223372036854775808)))) :=
    stands_of_readArg (n := 1) rfl
  have hvalues : evalArgs ⟨.obj [], .null⟩ [.literal (.num (.int 18446744073709551615)),
      .literal (.num (.int (-9223372036854775808)))] (.seeded 0) =
      .ok ([.num (.int 18446744073709551615), .num (.int (-9223372036854775808))], .seeded 0) := rfl
  obtain ⟨n, -, hcall, hint, -⟩ := evaluate_sum ⟨by decide, by decide⟩ ⟨by decide, by decide⟩
    (.cons hleft (.cons hright .nil)) hvalues
  refine ⟨rfl, ?_⟩
  rw [hcall, hint (by decide)]
  rfl

/-- Nothing is added to an integer, and it comes back as a double that is less by one. -/
theorem evaluate_sum_rounded :
    callText sumName ["9223372036854775809", "0"] = "States.MathAdd(9223372036854775809, 0)" ∧
    evaluate (callText sumName ["9223372036854775809", "0"]) ⟨.obj [], .null⟩ (.seeded 0) =
      .ok (.num (.float ⟨false, 2 ^ 52, 11, by decide⟩), .seeded 0) := by
  have hleft : Stands "9223372036854775809" (.literal (.num (.int 9223372036854775809))) :=
    stands_of_readArg (n := 1) rfl
  have hright : Stands "0" (.literal (.num (.int 0))) := stands_of_readArg (n := 1) rfl
  have hvalues : evalArgs ⟨.obj [], .null⟩ [.literal (.num (.int 9223372036854775809)),
      .literal (.num (.int 0))] (.seeded 0) =
      .ok ([.num (.int 9223372036854775809), .num (.int 0)], .seeded 0) := rfl
  refine ⟨rfl, ?_⟩
  rw [evaluate_sumText (.cons hleft (.cons hright .nil)) hvalues]
  rfl

end Intrinsic
end StateCheck
