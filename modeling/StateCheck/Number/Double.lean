import StateCheck.Number.Power
/-!
Finite IEEE 754 doubles by their exact value, and the arithmetic that rounds once per operation.

A `Double` is a sign, a significand and an exponent in canonical form, so every finite double has
one representation and its exact value is `± significand · 2 ^ exponent`. `Binary64` adds the two
infinities and the not-a-number. Sums, products and quotients are formed exactly and then rounded
to the nearest double, ties to the even significand (`Binary64.ofRatio`).
-/
namespace StateCheck
set_option autoImplicit false

/-- A finite double `± significand · 2 ^ exponent` in canonical form. -/
structure Double where
  negative : Bool
  significand : Nat
  exponent : Int
  canonical : significand < pow2 53 ∧ -1074 ≤ exponent ∧ exponent ≤ 971 ∧
    (pow2 52 ≤ significand ∨ exponent = -1074)
deriving DecidableEq

namespace Double

def zero (negative : Bool) : Double := ⟨negative, 0, -1074, by decide⟩

instance : Inhabited Double := ⟨zero false⟩

def neg (x : Double) : Double := { x with negative := !x.negative }

def signed (x : Double) : Int := if x.negative then -x.significand else x.significand

/-- The exact magnitude as a fraction of two natural numbers; the denominator is positive. -/
def ratio (x : Double) : Nat × Nat :=
  if 0 ≤ x.exponent then (x.significand * pow2 x.exponent.toNat, 1)
  else (x.significand, pow2 (-x.exponent).toNat)

/-- The numerators of two doubles over one power of two. -/
def aligned (x y : Double) : Int × Int :=
  let e := min x.exponent y.exponent
  (x.signed * pow2 (x.exponent - e).toNat, y.signed * pow2 (y.exponent - e).toNat)

/-- The order of exact values: both zeros are equal. -/
def cmp (x y : Double) : Ordering :=
  let (a, b) := x.aligned y
  compare a b

def sameValue (x y : Double) : Bool := x.cmp y == .eq

end Double

/-! ## Rounding -/

/-- A quotient rounded to the nearest natural number, a half to the even neighbour. -/
def roundHalfEven (n d : Nat) : Nat :=
  let q := n / d
  let r := n % d
  if 2 * r < d then q else if d < 2 * r then q + 1 else q + q % 2

/-- A double that may also be infinite or no number at all. -/
inductive Binary64 where
  | finite (value : Double)
  | infinite (negative : Bool)
  | nan
deriving DecidableEq

namespace Binary64

instance : Inhabited Binary64 := ⟨.finite default⟩

/-- The fraction `n / d` divided by `2 ^ e`. -/
def scaled (n d : Nat) (e : Int) : Nat × Nat :=
  if 0 ≤ e then (n, d <<< e.toNat) else (n <<< (-e).toNat, d)

/-- The exponent at which `n / d` has a quotient of 53 bits, or the least exponent. -/
def exponentFor (n d : Nat) : Int :=
  let e := max ((n.log2 : Int) - d.log2 - 53) (-1074)
  let (a, b) := scaled n d e
  if a / b < pow2 53 then e else e + 1

/-- The double nearest to `± n / d`, ties to even; infinite when the magnitude is out of range. -/
def ofRatio (negative : Bool) (n d : Nat) : Binary64 :=
  if n = 0 then .finite (.zero negative)
  else
    let e := exponentFor n d
    let (a, b) := scaled n d e
    let m := roundHalfEven a b
    let (m, e) := if m = pow2 53 then (pow2 52, e + 1) else (m, e)
    if h : m < pow2 53 ∧ -1074 ≤ e ∧ e ≤ 971 ∧ (pow2 52 ≤ m ∨ e = -1074) then
      .finite ⟨negative, m, e, h⟩
    else .infinite negative

def ofNat (n : Nat) : Binary64 := ofRatio false n 1

def ofInt (n : Int) : Binary64 := ofRatio (n < 0) n.natAbs 1

def powerOfTen (k : Nat) : Binary64 := ofNat (pow10 k)

/-! ## Arithmetic -/

def isNegative : Binary64 → Bool
  | .finite x => x.negative
  | .infinite s => s
  | .nan => false

def isZero : Binary64 → Bool
  | .finite x => x.significand == 0
  | _ => false

def neg : Binary64 → Binary64
  | .finite x => .finite x.neg
  | .infinite s => .infinite (!s)
  | .nan => .nan

def add : Binary64 → Binary64 → Binary64
  | .finite x, .finite y =>
    let (a, b) := x.aligned y
    let s := a + b
    if s = 0 then .finite (.zero (x.negative && y.negative))
    else
      let e := min x.exponent y.exponent
      if 0 ≤ e then ofRatio (s < 0) (s.natAbs * pow2 e.toNat) 1
      else ofRatio (s < 0) s.natAbs (pow2 (-e).toNat)
  | .nan, _ | _, .nan => .nan
  | .infinite s, .infinite t => if s = t then .infinite s else .nan
  | .infinite s, .finite _ | .finite _, .infinite s => .infinite s

def mul (x y : Binary64) : Binary64 :=
  let s := x.isNegative != y.isNegative
  match x, y with
  | .finite a, .finite b =>
    let (n, d) := a.ratio
    let (n', d') := b.ratio
    ofRatio s (n * n') (d * d')
  | .nan, _ | _, .nan => .nan
  | _, _ => if x.isZero || y.isZero then .nan else .infinite s

def div (x y : Binary64) : Binary64 :=
  let s := x.isNegative != y.isNegative
  match x, y with
  | .finite a, .finite b =>
    if b.significand = 0 then (if a.significand = 0 then .nan else .infinite s)
    else
      let (n, d) := a.ratio
      let (n', d') := b.ratio
      ofRatio s (n * d') (d * n')
  | .nan, _ | _, .nan => .nan
  | .infinite _, .infinite _ => .nan
  | .infinite _, .finite _ => .infinite s
  | .finite _, .infinite _ => .finite (.zero s)

instance : Neg Binary64 := ⟨neg⟩
instance : Add Binary64 := ⟨add⟩
instance : Mul Binary64 := ⟨mul⟩
instance : Div Binary64 := ⟨div⟩

/-- The order of values; a not-a-number is comparable with nothing. -/
def cmp? : Binary64 → Binary64 → Option Ordering
  | .finite x, .finite y => some (x.cmp y)
  | .nan, _ | _, .nan => none
  | .infinite s, .infinite t => some (if s = t then .eq else if s then .lt else .gt)
  | .infinite s, .finite _ => some (if s then .lt else .gt)
  | .finite _, .infinite s => some (if s then .gt else .lt)

/-- The smaller of two values; a not-a-number gives way to the other one. -/
def minimum (x y : Binary64) : Binary64 :=
  match x, y with
  | .nan, y => y
  | x, .nan => x
  | x, y => if x.cmp? y == some .gt then y else x

/-- The nearest whole number, a half away from zero. -/
def roundAway : Binary64 → Binary64
  | .finite x =>
    let (n, d) := x.ratio
    ofRatio x.negative ((2 * n + d) / (2 * d)) 1
  | x => x

def powLoop (base acc : Binary64) (n : Nat) : Binary64 :=
  if n = 0 then acc
  else
    let acc := if n % 2 = 1 then acc * base else acc
    powLoop (base * base) acc (n / 2)
termination_by n
decreasing_by omega

/-- A power with a natural exponent, each product rounded. -/
def pow (base : Binary64) (n : Nat) : Binary64 := powLoop base (ofNat 1) n

end Binary64
end StateCheck
