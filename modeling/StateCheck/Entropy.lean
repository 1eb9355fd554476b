import StateCheck.Number.Power
/-!
The source of the values that an execution draws: identifiers and random integers.

A generator gives each draw by the seed and the draws before it, so that equal seeds draw equal
values. Which values these are is its own affair, and executions take any generator.
-/
namespace StateCheck
set_option autoImplicit false

/-- What is drawn: random bits, or an integer between two bounds. -/
inductive Draw where
  | bits
  | between (low high : Int)

/-- A generator of random values. Each depends on the seed and on what was drawn before; without a
seed the generator takes one of its own. -/
structure Generator where
  bits : (seed : Option Nat) → (before : List Draw) → BitVec 128
  between : (seed : Option Nat) → (before : List Draw) → (low high : Int) → Int
  between_mem : ∀ seed before low high, low < high →
    low ≤ between seed before low high ∧ between seed before low high ≤ high

namespace Generator

/-! ## A counter whose successive values are mixed -/

def mix (x : UInt64) : UInt64 :=
  let x := (x ^^^ (x >>> 30)) * 0xBF58476D1CE4E5B9
  let x := (x ^^^ (x >>> 27)) * 0x94D049BB133111EB
  x ^^^ (x >>> 31)

/-- The words that draws use up. -/
def wordsOf : List Draw → Nat
  | [] => 0
  | .bits :: before => wordsOf before + 2
  | .between _ _ :: before => wordsOf before + 1

def word (seed : Nat) (index : Nat) : UInt64 :=
  mix (.ofNat seed + .ofNat (index + 1) * 0x9E3779B97F4A7C15)

/-- The generator that counts from the seed, or else from `fresh`. -/
def counting (fresh : Nat) : Generator where
  bits seed before :=
    let index := wordsOf before
    (word (seed.getD fresh) index).toBitVec ++ (word (seed.getD fresh) (index + 1)).toBitVec
  between seed before low high :=
    low + ((word (seed.getD fresh) (wordsOf before)).toNat : Int) % (high - low + 1)
  between_mem seed before low high h := by
    have hnonneg := Int.emod_nonneg
      ((word (seed.getD fresh) (wordsOf before)).toNat : Int) (b := high - low + 1) (by omega)
    have hlt := Int.emod_lt_of_pos
      ((word (seed.getD fresh) (wordsOf before)).toNat : Int) (b := high - low + 1) (by omega)
    omega

instance : Inhabited Generator := ⟨counting 0⟩

end Generator

/-- A generator with its seed and what was drawn of it, the last draw first. -/
structure Entropy where
  generator : Generator
  seed : Option Nat
  before : List Draw := []
deriving Inhabited

namespace Entropy

def start (seed : Option Nat) (generator : Generator := default) : Entropy := { generator, seed }

def seeded (seed : Nat) : Entropy := start (some seed)

/-- The lower-case hexadecimal digits of a number, `width` of them. -/
def hexDigits (width n : Nat) : List Char :=
  (List.range width).map fun i => Nat.digitChar (n / pow2 (4 * (width - 1 - i)) % 16)

/-- A version 4 identifier: 128 drawn bits in the usual five groups, with the version and the
variant in place of six of them. -/
def uuid (e : Entropy) : String × Entropy :=
  let n := (e.generator.bits e.seed e.before).toNat
  let groups := [hexDigits 8 (n / pow2 96), hexDigits 4 (n / pow2 80),
    '4' :: hexDigits 3 (n / pow2 64), hexDigits 4 (0x8000 + n / pow2 48 % 0x4000), hexDigits 12 n]
  (String.ofList (['-'].intercalate groups), { e with before := .bits :: e.before })

/-- An integer between two bounds, both included; the first bound when it is not below the second,
and then nothing is drawn. -/
def integerBetween (low high : Int) (e : Entropy) : Int × Entropy :=
  if high ≤ low then (low, e)
  else
    (e.generator.between e.seed e.before low high,
      { e with before := .between low high :: e.before })

theorem integerBetween_mem {low high : Int} (h : low ≤ high) (e : Entropy) :
    low ≤ (e.integerBetween low high).1 ∧ (e.integerBetween low high).1 ≤ high := by
  rw [integerBetween]
  split
  · exact ⟨Int.le_refl low, h⟩
  · exact e.generator.between_mem _ _ _ _ (by omega)

end Entropy
end StateCheck
