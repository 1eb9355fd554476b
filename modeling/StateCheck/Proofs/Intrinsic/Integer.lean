import StateCheck.Proofs.Intrinsic.Range
import StateCheck.Proofs.Number.Precision
/-!
Numbers that are taken for integers.

A number is taken for the 64-bit integer that its decimal is (`Number.toInteger?_eq_some_iff`), and
in the arguments of calls it counts as this integer only (`Intrinsic.Function.apply_set`).
Integers and whole floats are taken for themselves. A float that is not whole may have a whole
decimal, the nearer to it the more digits it has, and from `2 ^ 49` on every float has one
(`Number.integer_reading`).
-/
namespace StateCheck
set_option autoImplicit false

theorem guarded_iff {m n : Int} : (if IsInt64 m then some m else none) = some n ↔
    m = n ∧ IsInt64 n := by
  rw [Option.ite_none_right_eq_some, Option.some.injEq, and_comm]
  exact and_congr_right fun h => h ▸ Iff.rfl

/-! ## Decimals -/

namespace Decimal

variable {d : Decimal} {i : Int}

theorem value_eq_intCast_iff : d.value = i ↔ d.signed = i * 10 ^ d.scale := by
  rw [value, div_eq_iff (by positivity)]
  exact_mod_cast Iff.rfl

theorem mantissa_of_value (h : d.value = i) : d.mantissa = i.natAbs * 10 ^ d.scale := by
  have habs : d.signed.natAbs = d.mantissa := by
    rw [signed]
    split <;> omega
  rw [← habs, value_eq_intCast_iff.mp h, Int.natAbs_mul, Int.natAbs_pow]
  rfl

theorem integer_iff : (if d.isWhole then d.toInt64? else none) = some i ↔
    d.value = i ∧ IsInt64 i := by
  have hpos : 0 < 10 ^ d.scale := by positivity
  rw [isWhole, toInt64?, pow10_eq]
  by_cases hwhole : d.mantissa % 10 ^ d.scale = 0
  · obtain ⟨q, hq⟩ := Nat.dvd_of_mod_eq_zero hwhole
    have hquotient : (d.mantissa : Int) / (10 ^ d.scale : Nat) = q := by
      rw [hq, ← Int.natCast_ediv, Nat.mul_div_cancel_left q hpos]
    have hvalue : d.value = ((if d.negative then -(q : Int) else q : Int) : ℚ) := by
      rw [value_eq_intCast_iff, signed, hq]
      split <;> (push_cast; ring)
    rw [if_pos (by simpa using hwhole), hquotient, hvalue, Int.cast_inj]
    exact guarded_iff
  · rw [if_neg (by simpa using hwhole)]
    constructor
    · intro h
      cases h
    · intro h
      refine absurd ?_ hwhole
      rw [mantissa_of_value h.1, Nat.mul_mod_left]

end Decimal

/-! ## Numbers -/

namespace Number

variable {v : Number} {i : Int}

theorem rank_int (n : Int) : (int n).rank = n := by
  rw [rank]
  split
  · next d hd =>
    have hfits : n.natAbs < pow2 96 ∧ 0 ≤ 28 := by
      by_contra hnot
      rw [toDecimal?, Decimal.ofInt?, Decimal.mk?, dif_neg hnot] at hd
      cases hd
    rw [toDecimal?, Decimal.ofInt?, Decimal.mk?, dif_pos hfits] at hd
    obtain rfl := Option.some.inj hd
    rw [Decimal.value_eq, pow_zero, div_one, sign_mul_natAbs]
  · rfl

/-- A number is taken for the 64-bit integer that it ranks as. -/
theorem toInteger?_eq_some_iff : v.toInteger? = some i ↔ v.rank = i ∧ IsInt64 i := by
  cases v with
  | int n =>
    rw [rank_int, Int.cast_inj]
    exact guarded_iff
  | float x =>
    rw [toInteger?]
    cases hd : Decimal.ofDouble? x with
    | some d =>
      have hrank : (float x).rank = d.value := by simp [rank, toDecimal?, hd]
      rw [hrank]
      exact Decimal.integer_iff
    | none =>
      have hfits : (float x).Fits := trivial
      obtain ⟨hzero, hlarge⟩ := large_of_toDecimal?_eq_none hfits hd
      have hrank : (float x).rank = (float x).value := by simp [rank, toDecimal?, hd]
      constructor
      · intro h
        cases h
      · rintro ⟨hvalue, hlow, hhigh⟩
        have habs : (2 : ℚ) ^ 96 ≤ |(i : ℚ)| := by
          rw [← hvalue, hrank]
          exact hlarge.trans (raw_le hzero)
        have habs : 2 ^ 96 ≤ |i| := by exact_mod_cast habs
        rcases abs_cases i with ⟨h, -⟩ | ⟨h, -⟩ <;> omega

/-- Numbers whose value is a 64-bit integer rank as it, so that no rounding is to be seen. -/
theorem rank_of_value (hv : v.Fits) (hi : IsInt64 i) (h : v.value = i) : v.rank = i := by
  have hfits : (int i).Fits := ⟨hi.1, hi.2.trans (by norm_num)⟩
  have hle := rank_mono hv hfits h.le
  have hge := rank_mono hfits hv h.ge
  rw [rank_int] at hle hge
  exact hle.antisymm hge

/-- How far a number may be from an integer that it is taken for: an integer not at all, and a float
by what the digits of its decimal leave out. -/
def tolerance (v : Number) (i : Int) : ℚ :=
  match v with
  | .int _ => 0
  | .float _ => |(i : ℚ)| / 2 ^ 49 + 1 / 10 ^ 27

theorem near_of_rank (hv : v.Fits) (hi : IsInt64 i) (h : v.rank = i) :
    |v.value - i| < 1 ∧ |v.value - i| ≤ v.tolerance i := by
  cases v with
  | int n =>
    rw [rank_int, Int.cast_inj] at h
    subst h
    simp [value, tolerance]
  | float x =>
    cases hd : (float x).toDecimal? with
    | some d =>
      obtain ⟨hunit, hnear⟩ := rank_near hv hd
      rw [h] at hunit hnear
      have habs : |(i : ℚ)| ≤ 2 ^ 63 := by
        rw [← Int.cast_abs]
        exact_mod_cast abs_le.mpr ⟨hi.1, hi.2.le⟩
      have hback := abs_sub_abs_le_abs_sub (float x).value i
      exact ⟨by linarith, hnear⟩
    | none =>
      -- A number without a decimal ranks as itself.
      have hvalue : (float x).rank = (float x).value := by simp [rank, hd]
      rw [← h, hvalue, sub_self, abs_zero]
      exact ⟨one_pos, by unfold tolerance; positivity⟩

theorem rank_whole (hv : v.Fits) {d : Decimal} (hd : v.toDecimal? = some d)
    (hlarge : 2 ^ 49 ≤ |v.value|) : ∃ n : Int, v.rank = n := by
  have hzero : v.value ≠ 0 := by
    intro hzero
    rw [hzero, abs_zero] at hlarge
    norm_num at hlarge
  rcases toDecimal?_reading hv hzero with ⟨-, hnone⟩ | ⟨-, k, places, d', -, hraw, hd', hvalue⟩
  · rw [hd] at hnone
    cases hnone
  have hrank : v.rank = sign v.negative * Decimal.fraction (Decimal.settled places k) := by
    rw [rank, hd']
    exact hvalue
  have hexpanded : (2 : ℚ) ^ 49 ≤ v.raw := by
    have hleast : (int (2 ^ 49)).Fits := ⟨by decide, by decide⟩
    have hvalue : |(int (2 ^ 49)).value| = 2 ^ 49 := by norm_num [value]
    have hle := raw_mono hleast (by norm_num [value]) hzero (hvalue.trans_le hlarge)
    rwa [raw, ← value, hvalue] at hle
  have hmantissa : 2 ^ 49 * 10 ^ places ≤ k := by
    rw [hraw, Decimal.fraction, le_div_iff₀ (by positivity)] at hexpanded
    exact_mod_cast hexpanded
  rw [hrank, Decimal.settled_eq, Decimal.fraction, Decimal.trimmed_whole hmantissa, pow_zero,
    div_one, sign]
  split
  · exact ⟨-(Decimal.trimmed places k).1, by push_cast; ring⟩
  · exact ⟨(Decimal.trimmed places k).1, by push_cast; ring⟩

/-- From `2 ^ 49` on every number is taken for an integer, as long as there are such. -/
theorem exists_toInteger? (hv : v.Fits) (hlarge : 2 ^ 49 ≤ |v.value|)
    (hbound : |v.value| ≤ 2 ^ 63 - 1) : ∃ n, v.toInteger? = some n := by
  obtain ⟨n, hn⟩ : ∃ n : Int, v.rank = n := by
    cases hd : v.toDecimal? with
    | some d => exact rank_whole hv hd hlarge
    | none =>
      -- A number without a decimal is larger than every 64-bit integer.
      obtain ⟨hzero, hraw⟩ := large_of_toDecimal?_eq_none hv hd
      linarith [raw_le hzero]
  have hmost : (int (2 ^ 63 - 1)).Fits := ⟨by decide, by decide⟩
  have hvalue : |(int (2 ^ 63 - 1)).value| = 2 ^ 63 - 1 := by norm_num [value]
  have habs := abs_rank_mono hv hmost (hbound.trans hvalue.ge)
  rw [rank_int, ← value, hvalue, hn] at habs
  have habs : |n| ≤ 2 ^ 63 - 1 := by exact_mod_cast habs
  refine ⟨n, toInteger?_eq_some_iff.mpr ⟨hn, ?_⟩⟩
  rcases abs_le.mp habs with ⟨hlow, hhigh⟩
  exact ⟨by omega, by omega⟩

end Number

/-! ## Arguments -/

namespace Intrinsic

theorem needInteger_num (v : Number) : needInteger (.num v) =
    match v.toInteger? with
    | some n => .ok n
    | none => .error (.notInteger v.text) := by
  rw [needInteger, Json.asInteger?]
  cases v.toInteger? <;> rfl

theorem need2_of_length {α : Type} {args : List Json} (h : args.length ≠ 2)
    (f : Json → Json → Checked α) : need2 args f = .error (.arity 2 args.length) := by
  unfold need2
  split
  · exact absurd rfl h
  · rfl

theorem need3_of_length {α : Type} {args : List Json} (h : args.length ≠ 3)
    (f : Json → Json → Json → Checked α) : need3 args f = .error (.arity 3 args.length) := by
  unfold need3
  split
  · exact absurd rfl h
  · rfl

namespace Function

/-- The places of the arguments that count as integers: the size of a chunk, the ends and the step
of a range, an index, and the bounds of a draw. -/
def integerPlaces : Function → List Nat
  | arrayPartition | arrayGetItem => [1]
  | arrayRange => [0, 1, 2]
  | mathRandom => [0, 1]
  | _ => []

variable {f : Function} {name : String} {j : Nat} {args : List Json} {v w : Json} {e : Entropy}

theorem value_set (hj : j ∈ f.integerPlaces) (hv : args[j]? = some v)
    (h : needInteger w = needInteger v) : f.value (args.set j w) = f.value args := by
  cases f with
  | arrayPartition | arrayGetItem =>
    obtain rfl := List.mem_singleton.mp hj
    by_cases hlength : args.length = 2
    · obtain ⟨a, b, rfl⟩ := List.length_eq_two.mp hlength
      cases hv
      simp only [value, need2, List.set, h]
    · simp only [value]
      rw [need2_of_length hlength, need2_of_length (by rwa [List.length_set]), List.length_set]
  | arrayRange =>
    by_cases hlength : args.length = 3
    · obtain ⟨a, b, c, rfl⟩ := List.length_eq_three.mp hlength
      simp only [integerPlaces, List.mem_cons, List.not_mem_nil, or_false] at hj
      rcases hj with rfl | rfl | rfl <;> cases hv <;> simp only [value, need3, List.set, h]
    · simp only [value]
      rw [need3_of_length hlength, need3_of_length (by rwa [List.length_set]), List.length_set]
  | mathRandom => rfl
  | _ => cases hj

theorem apply_set (hj : j ∈ f.integerPlaces) (hv : args[j]? = some v)
    (h : needInteger w = needInteger v) : f.apply name (args.set j w) e = f.apply name args e := by
  by_cases hrandom : f = mathRandom
  · subst hrandom
    have hplace : j = 0 ∨ j = 1 := by simpa [integerPlaces] using hj
    match args, hv with
    | [a], hv => rcases hplace with rfl | rfl <;> cases hv; rfl
    | [a, b], hv | [a, b, c], hv =>
      rcases hplace with rfl | rfl <;> cases hv <;> simp only [apply, List.set, h]
    | a :: b :: c :: d :: rest, hv => rcases hplace with rfl | rfl <;> simp [apply]
  · have huuid : f ≠ uuid := by
      rintro rfl
      cases hj
    rw [apply_eq hrandom huuid, apply_eq hrandom huuid, value_set hj hv h]

theorem value_refused (hj : j ∈ f.integerPlaces) (hf : f ≠ mathRandom) (hv : args[j]? = some v)
    {flaw : CallFlaw} (h : needInteger v = .error flaw) : ∃ flaw', f.value args = .error flaw' := by
  cases f with
  | arrayPartition | arrayGetItem =>
    obtain rfl := List.mem_singleton.mp hj
    by_cases hlength : args.length = 2
    · obtain ⟨a, b, rfl⟩ := List.length_eq_two.mp hlength
      cases hv
      simp only [value, need2, h]
      cases needArray a <;> exact ⟨_, rfl⟩
    · exact ⟨_, need2_of_length hlength _⟩
  | arrayRange =>
    by_cases hlength : args.length = 3
    · obtain ⟨a, b, c, rfl⟩ := List.length_eq_three.mp hlength
      simp only [integerPlaces, List.mem_cons, List.not_mem_nil, or_false] at hj
      simp only [value, need3]
      rcases hj with rfl | rfl | rfl <;> cases hv
      · rw [h]
        exact ⟨_, rfl⟩
      · cases needInteger a with
        | error flaw => exact ⟨_, rfl⟩
        | ok n =>
          rw [h]
          exact ⟨_, rfl⟩
      · cases needInteger a with
        | error flaw => exact ⟨_, rfl⟩
        | ok n =>
          cases needInteger b with
          | error flaw => exact ⟨_, rfl⟩
          | ok n =>
            rw [h]
            exact ⟨_, rfl⟩
    · exact ⟨_, need3_of_length hlength _⟩
  | mathRandom => exact absurd rfl hf
  | _ => cases hj

theorem apply_refused (hj : j ∈ f.integerPlaces) (hv : args[j]? = some v) {flaw : CallFlaw}
    (h : needInteger v = .error flaw) :
    ∃ flaw', f.apply name args e = .error (.intrinsicFailure name flaw') := by
  by_cases hrandom : f = mathRandom
  · subst hrandom
    have hplace : j = 0 ∨ j = 1 := by simpa [integerPlaces] using hj
    match args, hv with
    | [a], hv => exact ⟨_, rfl⟩
    | [a, b], hv | [a, b, c], hv =>
      rcases hplace with rfl | rfl <;> cases hv
      · exact ⟨flaw, by simp only [apply, h]; rfl⟩
      · cases ha : needInteger a with
        | error flaw => exact ⟨flaw, by simp only [apply, ha]; rfl⟩
        | ok n => exact ⟨flaw, by simp only [apply, ha, h]; rfl⟩
    | a :: b :: c :: d :: rest, hv => exact ⟨_, rfl⟩
  · have huuid : f ≠ uuid := by
      rintro rfl
      cases hj
    obtain ⟨flaw', hvalue⟩ := value_refused hj hrandom hv h
    rw [apply_eq hrandom huuid, hvalue]
    exact ⟨flaw', rfl⟩

end Function
end Intrinsic

namespace Number

/-- A number is taken for the 64-bit integer that is its value, unless it is a float that is nearer
to another integer than its digits can tell. It is then taken for an integer that it compares equal
to, less than one away, which becomes of every float from `2 ^ 49` on. In a call the number counts
as the integer that it is taken for, and without one the call fails. -/
theorem integer_reading {v : Number} (hv : v.Fits) (i : Int) :
    (v.value = i ∨ v.tolerance i < |v.value - i| →
      (v.toInteger? = some i ↔ v.value = i ∧ IsInt64 i)) ∧
    (v.toInteger? = some i ↔ v.cmp? (.int i) = some .eq ∧ IsInt64 i) ∧
    (v.toInteger? = some i → |v.value - i| < 1) ∧
    (2 ^ 49 ≤ |v.value| → |v.value| ≤ 2 ^ 63 - 1 → ∃ n, v.toInteger? = some n) ∧
    ∀ (f : Intrinsic.Function) (name : String) (j : Nat) (args : List Json) (e : Entropy),
      j ∈ f.integerPlaces → args[j]? = some (.num v) →
        (v.toInteger? = some i → f.apply name (args.set j (.ofInt i)) e = f.apply name args e) ∧
        (v.toInteger? = none →
          ∃ flaw, f.apply name args e = .error (.intrinsicFailure name flaw)) := by
  refine ⟨?_, ?_, ?_, ?_, ?_⟩
  · intro hclear
    rw [toInteger?_eq_some_iff]
    constructor
    · rintro ⟨hrank, hi⟩
      refine ⟨hclear.resolve_right fun hfar => ?_, hi⟩
      exact absurd (near_of_rank hv hi hrank).2 (not_le.mpr hfar)
    · rintro ⟨hvalue, hi⟩
      exact ⟨rank_of_value hv hi hvalue, hi⟩
  · rw [toInteger?_eq_some_iff]
    refine and_congr_left fun hi => ?_
    have hfits : (int i).Fits := ⟨hi.1, hi.2.trans (by norm_num)⟩
    rw [cmp?_eq_some_eq_iff hv hfits, rank_int]
  · intro h
    obtain ⟨hrank, hi⟩ := toInteger?_eq_some_iff.mp h
    exact (near_of_rank hv hi hrank).1
  · exact exists_toInteger? hv
  · intro f name j args e hj hargs
    constructor
    · intro h
      refine Intrinsic.Function.apply_set hj hargs ?_
      have hi := (toInteger?_eq_some_iff.mp h).2
      have hself : (int i).toInteger? = some i := if_pos hi
      rw [Json.ofInt, Intrinsic.needInteger_num, Intrinsic.needInteger_num, h, hself]
    · intro h
      have hflaw : Intrinsic.needInteger (.num v) = .error (.notInteger v.text) := by
        rw [Intrinsic.needInteger_num, h]
      exact Intrinsic.Function.apply_refused hj hargs hflaw

/-- Three and a half is far enough from four to be taken for no integer there. -/
theorem integer_reading_half :
    let v := Number.float ⟨false, 7 * 2 ^ 50, -51, by decide⟩
    v.Fits ∧ v.value = 7 / 2 ∧ v.toInteger? ≠ some 4 := by
  intro v
  have hvalue : v.value = 7 / 2 := by norm_num [v, value, Double.value, Double.signed]
  have hfar : v.tolerance 4 < |v.value - (4 : Int)| := by
    rw [hvalue]
    norm_num [v, tolerance, abs_of_neg]
  refine ⟨trivial, hvalue, fun h => ?_⟩
  have hfour := (((integer_reading (v := v) trivial 4).1 (.inr hfar)).mp h).1
  rw [hvalue] at hfour
  norm_num at hfour

/-- A float that ends in a half is taken for the integer above it, and the range starts there. -/
theorem half_taken_for_integer :
    let v := Number.float ⟨false, 8 * 1000000000000001, -4, by decide⟩
    Number.read? "500000000000000.5".toList = some v ∧ v.value = 500000000000000 + 1 / 2 ∧
      v.toInteger? = some 500000000000001 ∧
      Intrinsic.Function.arrayRange.value [.num v, .ofInt 500000000000001, .ofInt 1] =
        .ok (.arr [.ofInt 500000000000001]) := by
  refine ⟨?_, ?_, ?_, ?_⟩
  · decide
  · norm_num [value, Double.value, Double.signed]
  · decide
  · rfl

end Number
end StateCheck
