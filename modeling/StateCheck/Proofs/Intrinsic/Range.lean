import Mathlib.Tactic.Linarith
import StateCheck.Proofs.Intrinsic.Calls
import StateCheck.Proofs.Number.Value
/-!
Ranges of integers.

A range is an arithmetic progression, cut where it passes its end. Its items are taken one by one,
and the one after an item may not be a signed 64-bit integer; the end is one, so no item is left
then (`Intrinsic.range?_eq`). What a call returns is the whole progression, unless its step is zero
or its length is over the limit (`Intrinsic.evaluate_range`).
-/
namespace StateCheck
set_option autoImplicit false

/-- A signed 64-bit integer. -/
def IsInt64 (n : Int) : Prop := -2 ^ 63 ≤ n ∧ n < 2 ^ 63

instance (n : Int) : Decidable (IsInt64 n) := inferInstanceAs (Decidable (_ ∧ _))

theorem isInt64_of_guarded {m n : Int} (h : (if IsInt64 m then some m else none) = some n) :
    IsInt64 n := by
  obtain ⟨hrange, hn⟩ := Option.ite_none_right_eq_some.mp h
  exact Option.some.inj hn ▸ hrange

theorem Number.isInt64_of_toInteger? {x : Number} {n : Int} (h : x.toInteger? = some n) :
    IsInt64 n := by
  cases x with
  | int m => exact isInt64_of_guarded h
  | float x =>
    rw [toInteger?] at h
    split at h
    · split at h
      · exact isInt64_of_guarded h
      · cases h
    · cases h

theorem Json.isInt64_of_asInteger? {v : Json} {n : Int} (h : v.asInteger? = some n) :
    IsInt64 n := by
  cases v with
  | num x => exact Number.isInt64_of_toInteger? h
  | _ => cases h

namespace Intrinsic

variable {a b s : Int} {n : Nat}

/-! ## Progressions -/

/-- The integers from `a` in steps of `s` have not passed `b` after `k` steps. -/
def Within (a b s : Int) (k : Nat) : Prop := (0 < s ∧ a + k * s ≤ b) ∨ (s < 0 ∧ b ≤ a + k * s)

/-- The first `n` of the integers from `a` in steps of `s`. -/
def progression (a s : Int) (n : Nat) : List Int := (List.range n).map fun k : Nat => a + k * s

theorem within_zero : Within a b s 0 ↔ (0 < s ∧ a ≤ b) ∨ (s < 0 ∧ b ≤ a) := by
  simp [Within]

theorem within_succ {k : Nat} : Within a b s (k + 1) ↔ Within (a + s) b s k := by
  have hterm : a + ((k + 1 : Nat) : Int) * s = a + s + k * s := by
    push_cast
    ring
  rw [Within, Within, hterm]

theorem progression_succ (a s : Int) (n : Nat) :
    progression a s (n + 1) = a :: progression (a + s) s n := by
  have hfirst : a + ((0 : Nat) : Int) * s = a := by simp
  rw [progression, progression, List.range_succ_eq_map, List.map_cons, List.map_map, hfirst]
  congr 2
  funext k
  simp only [Function.comp_apply, Nat.succ_eq_add_one]
  push_cast
  ring

theorem exists_within (a b s : Int) : ∃ n, ∀ k, Within a b s k ↔ k < n := by
  rcases lt_trichotomy s 0 with hs | rfl | hs
  · refine ⟨((a - b) / -s + 1).toNat, fun k => ?_⟩
    have hterm : b ≤ a + k * s ↔ (k : Int) * -s ≤ a - b := by
      constructor <;> intro h <;> linarith
    rw [Within, hterm, ← Int.le_ediv_iff_mul_le (by omega)]
    omega
  · exact ⟨0, fun k => by simp [Within]⟩
  · refine ⟨((b - a) / s + 1).toNat, fun k => ?_⟩
    have hterm : a + k * s ≤ b ↔ (k : Int) * s ≤ b - a := by
      constructor <;> intro h <;> linarith
    rw [Within, hterm, ← Int.le_ediv_iff_mul_le hs]
    omega

theorem isInt64_of_within {k : Nat} (ha : IsInt64 a) (hb : IsInt64 b) (h : Within a b s k) :
    IsInt64 (a + k * s) := by
  obtain ⟨halow, hahigh⟩ := ha
  obtain ⟨hblow, hbhigh⟩ := hb
  have hk : (0 : Int) ≤ k := Int.natCast_nonneg k
  rcases h with ⟨hs, hend⟩ | ⟨hs, hend⟩
  · have := mul_nonneg hk hs.le
    exact ⟨by omega, by omega⟩
  · have := mul_nonpos_of_nonneg_of_nonpos hk hs.le
    exact ⟨by omega, by omega⟩

/-! ## Items -/

theorem nextItem?_eq (s i : Int) :
    nextItem? s i = if IsInt64 (i + s) then some (i + s) else none := rfl

theorem past_iff (hs : s ≠ 0) :
    (0 < s ∧ b < a) ∨ (s < 0 ∧ a < b) ↔ ¬Within a b s 0 := by
  rw [within_zero]
  omega

theorem range?_of_past (hs : s ≠ 0) (h : ¬Within a b s 0) (limit : Nat) :
    range? b s limit a = some [] := by
  cases limit <;> exact if_pos ((past_iff hs).mpr h)

theorem range?_zero (hs : s ≠ 0) (h : Within a b s 0) : range? b s 0 a = none :=
  if_neg (mt (past_iff hs).mp (not_not_intro h))

theorem range?_succ (hs : s ≠ 0) (h : Within a b s 0) (limit : Nat) :
    range? b s (limit + 1) a =
      if IsInt64 (a + s) then (range? b s limit (a + s)).map (a :: ·) else some [a] := by
  rw [range?, if_neg (mt (past_iff hs).mp (not_not_intro h)), nextItem?_eq]
  by_cases hnext : IsInt64 (a + s)
  · rw [if_pos hnext, if_pos hnext]
  · rw [if_neg hnext, if_neg hnext]

/-- The items are the progression. Where the next is no signed 64-bit integer, it has passed the
end, which is one. -/
theorem range?_eq (hs : s ≠ 0) (hb : IsInt64 b) (ha : IsInt64 a)
    (hn : ∀ k, Within a b s k ↔ k < n) (limit : Nat) :
    range? b s limit a = if n ≤ limit then some (progression a s n) else none := by
  induction limit generalizing a n with
  | zero =>
    cases n with
    | zero => exact range?_of_past hs ((hn 0).not.mpr (by omega)) 0
    | succ n => exact range?_zero hs ((hn 0).mpr (by omega))
  | succ limit ih =>
    cases n with
    | zero => exact range?_of_past hs ((hn 0).not.mpr (by omega)) (limit + 1)
    | succ n =>
      rw [range?_succ hs ((hn 0).mpr (by omega)), progression_succ]
      have hrest : ∀ k, Within (a + s) b s k ↔ k < n := fun k => by
        rw [← within_succ, hn]
        omega
      by_cases hnext : IsInt64 (a + s)
      · rw [if_pos hnext, ih hnext hrest]
        by_cases hlimit : n ≤ limit
        · rw [if_pos hlimit, if_pos (by omega)]
          rfl
        · rw [if_neg hlimit, if_neg (by omega)]
          rfl
      · have hlast : n = 0 := by
          by_contra hmore
          have hterm := isInt64_of_within ha hb ((hn 1).mpr (by omega))
          exact hnext (by simpa using hterm)
        rw [if_neg hnext, if_pos (by omega), hlast]
        rfl

/-! ## The call -/

variable {texts : List String} {args : List Arg} {docs : Documents} {e e' : Entropy} {x y z : Json}

def rangeName : String := "States.ArrayRange"

theorem isName_range : IsName rangeName :=
  ⟨List.all_eq_true.mp (by decide +kernel), "ArrayRange".toList, rfl⟩

theorem value_arrayRange (hx : x.asInteger? = some a) (hy : y.asInteger? = some b)
    (hz : z.asInteger? = some s) : Function.arrayRange.value [x, y, z] =
      if s = 0 then .error .zeroStep
      else match range? b s rangeLimit a with
        | some items => .ok (.arr (items.map Json.ofInt))
        | none => .error .rangeTooLong := by
  have hneed : ∀ {v : Json} {n : Int}, v.asInteger? = some n → needInteger v = .ok n := by
    intro v n h
    rw [needInteger, h]
  simp only [Function.value, need3, hneed hx, hneed hy, hneed hz]
  rfl

theorem evaluate_rangeText (htexts : List.Forall₂ Stands texts args)
    (hvalues : evalArgs docs args e = .ok ([x, y, z], e')) (hx : x.asInteger? = some a)
    (hy : y.asInteger? = some b) (hz : z.asInteger? = some s)
    (hn : ∀ k, Within a b s k ↔ k < n) :
    evaluate (callText rangeName texts) docs e =
      if s = 0 then .error (.intrinsicFailure rangeName .zeroStep)
      else if 1000 < n then .error (.intrinsicFailure rangeName .rangeTooLong)
      else .ok (.arr ((progression a s n).map Json.ofInt), e') := by
  have hfunction : Function.ofName? rangeName = some .arrayRange := by decide
  rw [evaluate_valueText isName_range (by decide) hfunction (by decide) (by decide) htexts hvalues,
    value_arrayRange hx hy hz]
  by_cases hs : s = 0
  · rw [if_pos hs, if_pos hs]
    rfl
  · have hitems := range?_eq hs (Json.isInt64_of_asInteger? hy) (Json.isInt64_of_asInteger? hx) hn
      rangeLimit
    have hmost : rangeLimit = 1000 := rfl
    rw [if_neg hs, if_neg hs, hitems, hmost]
    by_cases hlimit : 1000 < n
    · rw [if_pos hlimit, if_neg (Nat.not_le.mpr hlimit)]
      rfl
    · rw [if_neg hlimit, if_pos (Nat.not_lt.mp hlimit)]
      rfl

/-- A range has every term of the progression up to its end, each a signed 64-bit integer, unless
there are over a thousand or the step is zero. The sum of an item and the step is never taken to be
another integer. -/
theorem evaluate_range (htexts : List.Forall₂ Stands texts args)
    (hvalues : evalArgs docs args e = .ok ([x, y, z], e')) (hx : x.asInteger? = some a)
    (hy : y.asInteger? = some b) (hz : z.asInteger? = some s) :
    ∃ n : Nat, (∀ k, Within a b s k ↔ k < n) ∧ (∀ m ∈ progression a s n, IsInt64 m) ∧
      evaluate (callText rangeName texts) docs e =
        (if s = 0 then .error (.intrinsicFailure rangeName .zeroStep)
        else if 1000 < n then .error (.intrinsicFailure rangeName .rangeTooLong)
        else .ok (.arr ((progression a s n).map Json.ofInt), e')) ∧
      (∀ err, evaluate (callText rangeName texts) docs e = .error err →
        err.name = ErrorName.intrinsicFailure) ∧
      ∀ i m, nextItem? s i = some m → m = i + s ∧ IsInt64 m := by
  obtain ⟨n, hn⟩ := exists_within a b s
  have ha := Json.isInt64_of_asInteger? hx
  have hb := Json.isInt64_of_asInteger? hy
  have hcall := evaluate_rangeText htexts hvalues hx hy hz hn
  refine ⟨n, hn, ?_, hcall, ?_, ?_⟩
  · intro m hm
    obtain ⟨k, hk, rfl⟩ := List.mem_map.mp hm
    exact isInt64_of_within ha hb ((hn k).mpr (List.mem_range.mp hk))
  · intro err herr
    rw [hcall] at herr
    split at herr
    · cases herr
      rfl
    · split at herr <;> cases herr
      rfl
  · intro i m hm
    exact ⟨(Option.some.inj (Option.ite_none_right_eq_some.mp hm).2).symm, isInt64_of_guarded hm⟩

/-- The item after the greatest integer but one would be too large, and the range ends there. -/
theorem evaluate_range_limit :
    callText rangeName ["9223372036854775806", "9223372036854775807", "5"] =
      "States.ArrayRange(9223372036854775806, 9223372036854775807, 5)" ∧
    evaluate (callText rangeName ["9223372036854775806", "9223372036854775807", "5"])
      ⟨.obj [], .null⟩ (.seeded 0) = .ok (.arr [.ofInt 9223372036854775806], .seeded 0) := by
  have hstart : Stands "9223372036854775806" (.literal (.num (.int 9223372036854775806))) :=
    stands_of_readArg (n := 1) rfl
  have hstop : Stands "9223372036854775807" (.literal (.num (.int 9223372036854775807))) :=
    stands_of_readArg (n := 1) rfl
  have hstep : Stands "5" (.literal (.num (.int 5))) := stands_of_readArg (n := 1) rfl
  have hvalues : evalArgs ⟨.obj [], .null⟩ [.literal (.num (.int 9223372036854775806)),
      .literal (.num (.int 9223372036854775807)), .literal (.num (.int 5))] (.seeded 0) =
      .ok ([.ofInt 9223372036854775806, .ofInt 9223372036854775807, .ofInt 5], .seeded 0) := rfl
  obtain ⟨n, hn, -, hcall, -, -⟩ :=
    evaluate_range (.cons hstart (.cons hstop (.cons hstep .nil))) hvalues rfl rfl rfl
  have hfirst : 0 < n := (hn 0).mp (.inl ⟨by decide, by decide⟩)
  have hsecond : ¬1 < n := mt (hn 1).mpr (by simp [Within])
  obtain rfl : n = 1 := by omega
  exact ⟨rfl, hcall⟩

end Intrinsic
end StateCheck
