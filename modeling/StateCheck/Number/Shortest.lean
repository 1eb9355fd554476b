import StateCheck.Number.Double
/-!
The decimal texts of a double.

`Double.shortest` gives the fewest decimal digits that read back as the same double, and of those
the digits nearest to it. The texts built on it differ only in where they put the point
(`Double.jsonText`, `Binary64.plainText`). `Binary64.fixedText` writes a fixed number of places.
-/
namespace StateCheck
set_option autoImplicit false

/-! ## Fewest digits -/

namespace Double

def powerLe (n d : Nat) (k : Int) : Bool :=
  if 0 ≤ k then pow10 k.toNat * d ≤ n else d ≤ n * pow10 (-k).toNat

/-- The decimal exponent of the leading digit of a positive fraction. -/
def leadingExponent (n d : Nat) : Int :=
  let guess := (((n.log2 : Int) - d.log2) * 30103) / 100000
  ([guess + 2, guess + 1, guess, guess - 1].find? (powerLe n d)).getD (guess - 2)

/-- The reals that round to a positive double: four times the bounds and the value, over four
times a power of two, and whether the bounds belong to it. -/
structure Interval where
  low : Nat
  mid : Nat
  high : Nat
  den : Nat
  closed : Bool

/-- The interval of a double: half a unit to each side, a quarter below a power of two. -/
def interval (x : Double) : Interval :=
  let m := x.significand
  let below := if m = pow2 52 ∧ -1074 < x.exponent then 1 else 2
  let up := if 0 ≤ x.exponent then pow2 x.exponent.toNat else 1
  let down := if 0 ≤ x.exponent then 1 else pow2 (-x.exponent).toNat
  ⟨(4 * m - below) * up, 4 * m * up, (4 * m + 2) * up, 4 * down, m % 2 == 0⟩

def Interval.holds (i : Interval) (digits : Nat) (k : Int) : Bool :=
  let v := if 0 ≤ k then digits * pow10 k.toNat * i.den else digits * i.den
  let s := if 0 ≤ k then 1 else pow10 (-k).toNat
  if i.closed then i.low * s ≤ v && v ≤ i.high * s else i.low * s < v && v < i.high * s

/-- The neighbour of the value on the grid of `10 ^ k` that reads back, the nearer if both do. -/
def Interval.onGrid (i : Interval) (k : Int) : Option Nat :=
  let n := if 0 ≤ k then i.mid else i.mid * pow10 (-k).toNat
  let d := if 0 ≤ k then i.den * pow10 k.toNat else i.den
  let q := n / d
  let r := n % d
  match i.holds q k, i.holds (q + 1) k with
  | true, true => some (if 2 * r < d || (2 * r == d && q % 2 == 0) then q else q + 1)
  | true, false => some q
  | false, true => some (q + 1)
  | false, false => none

/-- Drops trailing zeros, at most `limit` of them, counting them in the exponent. -/
def dropZeros : Nat → Nat → Int → Nat × Int
  | 0, digits, k => (digits, k)
  | limit + 1, digits, k =>
    if digits ≠ 0 ∧ digits % 10 = 0 then dropZeros limit (digits / 10) (k + 1) else (digits, k)

/-- The digits and the decimal exponent of the shortest decimal that reads back as the magnitude. -/
def shortest (x : Double) : Nat × Int :=
  if x.significand = 0 then (0, 0)
  else
    let i := x.interval
    let lead := leadingExponent i.mid i.den
    let hit := (List.range 17).findSome? fun (n : Nat) =>
      let k := lead - n
      (i.onGrid k).map fun digits => (digits, k)
    let (digits, k) := hit.getD (0, 0)
    dropZeros 20 digits k

/-! ## Placing the point -/

/-- The digits with the point after the first `whole` of them, padded with zeros; a whole number
ends in `tail`. -/
def positional (digits : String) (whole : Int) (tail : String) : String :=
  let n := digits.length
  if whole ≤ 0 then "0." ++ String.ofList (List.replicate (-whole).toNat '0') ++ digits
  else if (n : Int) ≤ whole then
    digits ++ String.ofList (List.replicate (whole.toNat - n) '0') ++ tail
  else
    let cs := digits.toList
    String.ofList (cs.take whole.toNat) ++ "." ++ String.ofList (cs.drop whole.toNat)

/-- One digit before the point and a signed exponent. -/
def scientific (digits : String) (exponent : Int) : String :=
  let cs := digits.toList
  let fraction := if cs.length ≤ 1 then "" else "." ++ String.ofList (cs.drop 1)
  let sign := if exponent < 0 then "-" else "+"
  String.ofList (cs.take 1) ++ fraction ++ "e" ++ sign ++ toString exponent.natAbs

/-- The text in a JSON document: positional from `1e-5` up to below `1e16`, with a decimal. -/
def jsonText (x : Double) : String :=
  let sign := if x.negative then "-" else ""
  if x.significand = 0 then sign ++ "0.0"
  else
    let (digits, k) := x.shortest
    let text := toString digits
    let exponent := k + text.length - 1
    if -5 ≤ exponent ∧ exponent < 16 then sign ++ positional text (exponent + 1) ".0"
    else sign ++ scientific text exponent

end Double

namespace Binary64

/-- The plain decimal expansion, without exponent and without a point on whole numbers. -/
def plainText : Binary64 → String
  | .nan => "NaN"
  | .infinite s => if s then "-inf" else "inf"
  | .finite x =>
    let sign := if x.negative then "-" else ""
    if x.significand = 0 then sign ++ "0"
    else
      let (digits, k) := x.shortest
      let text := toString digits
      sign ++ Double.positional text (k + text.length) ""

/-- The value with exactly `places` decimals, a half to the even digit. -/
def fixedText (places : Nat) : Binary64 → String
  | .nan => "NaN"
  | .infinite s => if s then "-inf" else "inf"
  | .finite x =>
    let sign := if x.negative then "-" else ""
    let (n, d) := x.ratio
    let units := roundHalfEven (n * pow10 places) d
    let fraction := toString (units % pow10 places)
    let padding := String.ofList (List.replicate (places - fraction.length) '0')
    sign ++ toString (units / pow10 places) ++
      (if places = 0 then "" else "." ++ padding ++ fraction)

end Binary64
end StateCheck
