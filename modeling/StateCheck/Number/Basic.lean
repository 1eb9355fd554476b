import StateCheck.Number.Decimal
import StateCheck.Number.Shortest
/-!
Numbers of JSON documents: integers and doubles, two kinds that are told apart.

Equality is equality within a kind: `1` and `1.0` differ. Order and sum go by value, through
96-bit decimals where both numbers have one (`Number.cmp?`, `Number.add?`). `Number.read?` reads
the text of a number and `Number.text` writes it.
-/
namespace StateCheck
set_option autoImplicit false

/-- A number of a document. Integers read from text are those of 64 bits, signed or unsigned. -/
inductive Number where
  | int (value : Int)
  | float (value : Double)
deriving DecidableEq, Inhabited

namespace Number

/-- Equality of two numbers of one kind; the two zeros among the floats are equal. -/
def same : Number → Number → Bool
  | .int a, .int b => a == b
  | .float a, .float b => a.sameValue b
  | _, _ => false

instance : BEq Number := ⟨same⟩

def ofNat (n : Nat) : Number := .int n

def toDecimal? : Number → Option Decimal
  | .int n => Decimal.ofInt? n
  | .float x => Decimal.ofDouble? x

def toBinary64 : Number → Binary64
  | .int n => Binary64.ofInt n
  | .float x => .finite x

def ofBinary64? : Binary64 → Option Number
  | .finite x => some (.float x)
  | _ => none

/-- The order by value: by decimals when both numbers have one, else by doubles. -/
def cmp? (a b : Number) : Option Ordering :=
  match a.toDecimal?, b.toDecimal? with
  | some x, some y => some (x.cmp y)
  | _, _ => a.toBinary64.cmp? b.toBinary64

/-- The number of a decimal: an integer when it is whole and fits 64 bits, else a double. -/
def ofDecimal (x : Decimal) : Option Number :=
  let x := x.normalize
  match (if x.scale = 0 then x.toInt64? else none) with
  | some n => some (.int n)
  | none => ofBinary64? x.toBinary64

inductive SumError where
  | outOfRange
  | overflow
deriving DecidableEq

/-- The sum by decimals; a number without decimal is out of range. -/
def add? (a b : Number) : Except SumError (Option Number) :=
  match a.toDecimal?, b.toDecimal? with
  | some x, some y =>
    match x.add? y with
    | some s => .ok (ofDecimal s)
    | none => .error .overflow
  | _, _ => .error .outOfRange

/-- The number as a signed 64-bit integer, whole floats included. -/
def toInteger? : Number → Option Int
  | .int n =>
    if -(pow2 63 : Int) ≤ n ∧ n < pow2 63 then some n else none
  | .float x =>
    match Decimal.ofDouble? x with
    | some d => if d.isWhole then d.toInt64? else none
    | none => none

/-- The number as an unsigned 64-bit integer; only integers have one. -/
def toNatural? : Number → Option Nat
  | .int n => if 0 ≤ n ∧ n < pow2 64 then some n.toNat else none
  | .float _ => none

def text : Number → String
  | .int n => toString n
  | .float x => x.jsonText

/-! ## Reading

The digits are gathered into a significand of 64 bits; from the digit on that would exceed it, whole
digits only raise the power of ten and decimals are passed over. The significand is then rounded
to a double and scaled by one power of ten, each step rounded once. -/

/-- The significand and the power of ten so far; `full` once a digit no longer fits. -/
structure Digits where
  significand : Nat := 0
  exponent : Int := 0
  full : Bool := false

namespace Digits

def pushWhole (d : Digits) (digit : Nat) : Digits :=
  if !d.full && d.significand * 10 + digit < pow2 64 then
    { d with significand := d.significand * 10 + digit }
  else { d with exponent := d.exponent + 1, full := true }

def pushDecimal (d : Digits) (digit : Nat) : Digits :=
  if !d.full && d.significand * 10 + digit < pow2 64 then
    { d with significand := d.significand * 10 + digit, exponent := d.exponent - 1 }
  else { d with full := true }

end Digits

def digitValue (c : Char) : Nat := c.toNat - '0'.toNat

/-- Divides by `1e308` until the power of ten is one that a double holds. -/
def scaleDown : Nat → Binary64 → Int → Binary64 × Int
  | 0, f, e => (f, e)
  | n + 1, f, e =>
    if -308 ≤ e || f.isZero then (f, e) else scaleDown n (f / Binary64.powerOfTen 308) (e + 308)

/-- The magnitude of a significand scaled by a power of ten; none beyond the doubles. -/
def scaledValue? (significand : Nat) (exponent : Int) : Option Double :=
  let f := Binary64.ofNat significand
  let result :=
    if f.isZero then f
    else if 308 < exponent then .infinite false
    else if 0 ≤ exponent then f * Binary64.powerOfTen exponent.toNat
    else
      let (f, e) := scaleDown 4 f exponent
      if e < -308 then .finite (.zero false) else f / Binary64.powerOfTen (-e).toNat
  match result with
  | .finite x => some x
  | _ => none

def signedFloat (negative : Bool) (x : Double) : Number :=
  .float (if negative then x.neg else x)

/-- The exponent part after `e`: an optional sign and at least one digit. -/
def readExponent? (cs : List Char) : Option Int :=
  let (negative, digits) :=
    match cs with
    | '+' :: rest => (false, rest)
    | '-' :: rest => (true, rest)
    | rest => (false, rest)
  if digits.isEmpty || !digits.all Char.isDigit then none
  else
    let n : Nat := digits.foldl (fun n c => n * 10 + digitValue c) 0
    some (if negative then -n else n)

/-- The greatest exponent that is read as such; a larger one stands for zero or for overflow. -/
def maxExponent : Nat := pow2 31 - 1

def floatOf? (negative : Bool) (d : Digits) (exponent : Int) : Option Number :=
  if (maxExponent : Int) < exponent ∧ d.significand ≠ 0 then none
  else if maxExponent < exponent.natAbs then some (signedFloat negative (.zero false))
  else (scaledValue? d.significand (d.exponent + exponent)).map (signedFloat negative)

/-- The number after its whole part: decimals and an exponent, or nothing. -/
def readTail? (negative : Bool) (whole : Digits) (rest : List Char) : Option Number :=
  match rest with
  | [] =>
    if whole.full then floatOf? negative whole 0
    else
      let n := whole.significand
      if !negative then some (.int n)
      else if 0 < n ∧ n ≤ pow2 63 then some (.int (-(n : Int)))
      else match Binary64.ofNat n with
        | .finite x => some (signedFloat true x)
        | _ => none
  | '.' :: rest =>
    let decimals := rest.takeWhile Char.isDigit
    if decimals.isEmpty then none
    else
      let d := decimals.foldl (fun d c => Digits.pushDecimal d (digitValue c))
        { whole with full := false }
      match rest.dropWhile Char.isDigit with
      | [] => floatOf? negative d 0
      | c :: rest =>
        if c = 'e' ∨ c = 'E' then (readExponent? rest).bind (floatOf? negative d) else none
  | c :: rest =>
    if c = 'e' ∨ c = 'E' then (readExponent? rest).bind (floatOf? negative whole) else none

/-- The number written by the whole text: no leading zeros, no sign but a minus, a digit on both
sides of the point. -/
def read? (cs : List Char) : Option Number :=
  let (negative, cs) :=
    match cs with
    | '-' :: rest => (true, rest)
    | rest => (false, rest)
  let whole := cs.takeWhile Char.isDigit
  match whole with
  | [] => none
  | '0' :: _ :: _ => none
  | _ =>
    readTail? negative (whole.foldl (fun d c => Digits.pushWhole d (digitValue c)) {})
      (cs.dropWhile Char.isDigit)

end Number
end StateCheck
