import StateCheck.Number.Double
/-!
Decimals of 96 bits: a sign, a mantissa below `2 ^ 96` and a scale of at most 28 places.

Doubles become decimals with the digits a double warrants (`Decimal.ofDouble?`), so that
`0.1 + 0.2` and `0.3` are the same decimal. The order is the order of exact values, a sum is exact
whenever it fits, and `Decimal.toBinary64` leads back to doubles.
-/
namespace StateCheck
set_option autoImplicit false

/-- The decimal `± mantissa / 10 ^ scale`. -/
structure Decimal where
  negative : Bool
  mantissa : Nat
  scale : Nat
  mantissa_lt : mantissa < pow2 96 := by decide
  scale_le : scale ≤ 28 := by decide
deriving DecidableEq

namespace Decimal

instance : Inhabited Decimal := ⟨⟨false, 0, 0, by decide, by decide⟩⟩

def mk? (negative : Bool) (mantissa scale : Nat) : Option Decimal :=
  if h : mantissa < pow2 96 ∧ scale ≤ 28 then some ⟨negative, mantissa, scale, h.1, h.2⟩ else none

def ofInt? (n : Int) : Option Decimal := mk? (n < 0) n.natAbs 0

def signed (x : Decimal) : Int := if x.negative then -x.mantissa else x.mantissa

/-! ## From doubles

A double is `m · 2 ^ e`. A negative power of two is `5 ^ (-e) / 10 ^ (-e)`, a positive one is
`10 ^ e / 5 ^ e`; both are worked off one factor at a time within 96 bits. -/

/-- Works off a negative power of two: halves an even mantissa, else multiplies by five, and when
that leaves 96 bits drops the lowest bit. -/
def absorbHalves : Nat → Nat → Int → Nat × Int
  | 0, m, e => (m, e)
  | n + 1, m, e =>
    if m % 2 = 0 then absorbHalves n (m / 2) (e + 1)
    else if m * 5 < pow2 96 then absorbHalves n (m * 5) e
    else absorbHalves n (m / 2) (e + 1)

/-- Works off a positive power of two: doubles while the mantissa has room, then divides by five. -/
def absorbDoubles : Nat → Nat → Int → Nat × Int
  | 0, m, e => (m, e)
  | n + 1, m, e =>
    if m < pow2 95 then absorbDoubles n (m * 2) (e - 1) else absorbDoubles n (m / 5) e

/-- Brings a positive decimal exponent to zero, failing beyond 96 bits. -/
def spendTens : Nat → Nat → Option Nat
  | 0, m => some m
  | n + 1, m => if m * 10 < pow2 96 then spendTens n (m * 10) else none

/-- One decimal digit less, rounded half up. -/
def dropDigit (m : Nat) : Nat := if m % 10 < 5 then m / 10 else m / 10 + 1

/-- Drops `n` digits one at a time, stopping with scale zero once nothing is left; the answer is
the mantissa and whether digits were left. -/
def dropDigits : Nat → Nat → Nat × Bool
  | 0, m => (m, true)
  | n + 1, m => if m / 10 = 0 then (0, false) else dropDigits n (dropDigit m)

/-- Drops places until the mantissa is below `2 ^ 52`, the digits a double warrants. -/
def trimPrecision : Nat → Nat → Nat × Nat
  | 0, m => (m, 0)
  | s + 1, m => if pow2 52 ≤ m then trimPrecision s (dropDigit m) else (m, s + 1)

def trimZeros : Nat → Nat → Nat × Nat
  | 0, m => (m, 0)
  | s + 1, m => if m % 10 = 0 then trimZeros s (m / 10) else (m, s + 1)

/-- The decimal of a double, with no more digits than a double warrants; none when the magnitude
does not fit 96 bits. -/
def ofDouble? (x : Double) : Option Decimal :=
  if x.significand = 0 then some ⟨x.negative, 0, 0, by decide, by decide⟩
  else
    let (m, e) :=
      if x.exponent ≤ 0 then absorbHalves (-x.exponent).toNat x.significand x.exponent
      else absorbDoubles x.exponent.toNat x.significand x.exponent
    match (if 0 < e then spendTens e.toNat m else some m) with
    | none => none
    | some m =>
      let places := (-e).toNat
      let (m, kept) := dropDigits (places - 28) m
      let places := if kept then min places 28 else 0
      let (m, places) := trimPrecision places m
      let (m, places) := trimZeros places m
      mk? x.negative m places

/-! ## Order and sum -/

def aligned (x y : Decimal) : Int × Int :=
  (x.signed * pow10 (y.scale - x.scale), y.signed * pow10 (x.scale - y.scale))

def cmp (x y : Decimal) : Ordering :=
  let (a, b) := x.aligned y
  compare a b

/-- The value `± n / 10 ^ scale` with as many places as 96 bits hold, the last one rounded half to
even; none when not even the whole part fits. -/
def fit? (negative : Bool) (n scale : Nat) : Option Decimal :=
  (List.range (scale + 1)).findSome? fun drop =>
    mk? negative (roundHalfEven n (pow10 drop)) (scale - drop)

/-- The sum, exact when it fits 96 bits. -/
def add? (x y : Decimal) : Option Decimal :=
  let (a, b) := x.aligned y
  let s := a + b
  fit? (s < 0) s.natAbs (max x.scale y.scale)

/-! ## Back to integers and doubles -/

/-- The same value without trailing zeros among its places; zero is positive. -/
def normalize (x : Decimal) : Decimal :=
  let (m, s) := trimZeros x.scale x.mantissa
  if m = 0 then default else (mk? x.negative m s).getD x

def toInt64? (x : Decimal) : Option Int :=
  let n : Int := x.mantissa / pow10 x.scale
  let n := if x.negative then -n else n
  if -(pow2 63 : Int) ≤ n ∧ n < pow2 63 then some n else none

def isWhole (x : Decimal) : Bool := x.mantissa % pow10 x.scale == 0

/-- The double of a decimal: whole part and fraction are converted apart, and the sum is rounded
to the places of the decimal. -/
def toBinary64 (x : Decimal) : Binary64 :=
  let p := pow10 x.scale
  let whole := Binary64.ofNat (x.mantissa / p)
  let fraction := Binary64.ofNat (x.mantissa % p) / Binary64.ofNat p
  let magnitude :=
    if x.scale = 0 || fraction.isZero then whole
    else
      let unit := (Binary64.ofNat 10).pow x.scale
      ((whole + fraction) * unit).roundAway / unit
  if x.negative && x.mantissa ≠ 0 then -magnitude else magnitude

end Decimal
end StateCheck
