import StateCheck.Document.Node
/-!
What a scalar without quotes stands for: null, a truth value, a number or its own characters.

Digits after a leading zero are a text, and so is a number too big for a double. A tag may settle
the kind beforehand (`Tag.meaning`).
-/
namespace StateCheck.Yaml
set_option autoImplicit false

/-! ## Integers -/

def digitValue? (base : Nat) (c : Char) : Option Nat :=
  let n :=
    if c.isDigit then c.toNat - '0'.toNat
    else if 'a' ≤ c ∧ c ≤ 'f' then c.toNat - 'a'.toNat + 10
    else if 'A' ≤ c ∧ c ≤ 'F' then c.toNat - 'A'.toNat + 10
    else base
  if n < base then some n else none

def ofDigits? (base : Nat) (digits : List Char) : Option Nat :=
  if digits.isEmpty then none
  else digits.foldlM (fun n c => (digitValue? base c).map (n * base + ·)) 0

/-- Digits with the mark of their base in front. -/
def based? : List Char → Option Nat
  | '0' :: 'x' :: rest => ofDigits? 16 rest
  | '0' :: 'o' :: rest => ofDigits? 8 rest
  | '0' :: 'b' :: rest => ofDigits? 2 rest
  | _ => none

def unsigned : List Char → List Char
  | '-' :: rest | '+' :: rest => rest
  | cs => cs

/-- Whether the characters are digits after a leading zero. -/
def isZeroPadded (cs : List Char) : Bool :=
  match unsigned cs with
  | '0' :: d :: rest => (d :: rest).all Char.isDigit
  | _ => false

def integer? (cs : List Char) : Option Int :=
  let value (digits : List Char) : Option Nat :=
    (based? digits).or (if isZeroPadded cs then none else ofDigits? 10 digits)
  match cs with
  | '-' :: rest => (value rest).map fun n => -(n : Int)
  | '+' :: rest => (value rest).map fun n => (n : Int)
  | _ => (value cs).map fun n => (n : Int)

/-- Whether an integer has at most 128 bits; a longer one counts as a float. -/
def fitsWide (n : Int) : Bool := -(pow2 127 : Int) ≤ n && n < pow2 128

/-! ## Floats -/

/-- The digits of a number without its exponent, and how many stand after the point. -/
def fraction? (cs : List Char) : Option (Nat × Nat) :=
  let whole := cs.takeWhile Char.isDigit
  match cs.dropWhile Char.isDigit with
  | [] => (ofDigits? 10 whole).map (·, 0)
  | '.' :: decimals =>
    if decimals.all Char.isDigit then (ofDigits? 10 (whole ++ decimals)).map (·, decimals.length)
    else none
  | _ => none

def exponent? (cs : List Char) : Option Int :=
  match cs with
  | '-' :: rest => (ofDigits? 10 rest).map fun n => -(n : Int)
  | '+' :: rest => (ofDigits? 10 rest).map fun n => (n : Int)
  | _ => (ofDigits? 10 cs).map fun n => (n : Int)

/-- The double nearest to `digits` times a power of ten; beyond the range of doubles the power
itself does not matter. -/
def scaled (negative : Bool) (digits : Nat) (power : Int) : Binary64 :=
  let size := (Nat.toDigits 10 digits).length
  let power := max (-400 - (size : Int)) (min 400 power)
  if 0 ≤ power then .ofRatio negative (digits * pow10 power.toNat) 1
  else .ofRatio negative digits (pow10 (-power).toNat)

def float? (cs : List Char) : Option Binary64 :=
  let negative := cs.head? == some '-'
  let body := unsigned cs
  let isMark (c : Char) : Bool := c == 'e' || c == 'E'
  let read : Option Binary64 := do
    let (digits, places) ← fraction? (body.takeWhile (!isMark ·))
    let power ← match body.dropWhile (!isMark ·) with
      | [] => some 0
      | _ :: exponent => exponent? exponent
    return scaled negative digits (power - places)
  read.filter fun x => match x with
    | .finite _ => true
    | _ => false

def anyFloat? (text : String) : Option Binary64 :=
  if [".inf", ".Inf", ".INF", "+.inf", "+.Inf", "+.INF"].contains text then some (.infinite false)
  else if ["-.inf", "-.Inf", "-.INF"].contains text then some (.infinite true)
  else if [".nan", ".NaN", ".NAN"].contains text then some .nan
  else float? text.toList

/-! ## Scalars -/

/-- The node of an integer; one of more than 64 bits has no value. -/
def integerNode (n : Int) (text : String) : Node :=
  if -(pow2 63 : Int) ≤ n ∧ n < pow2 64 then .scalar (.num (.int n)) (some text) else .unvalued text

def doubleNode (x : Binary64) (text : String) : Node :=
  match x with
  | .finite d => .scalar (.num (.float d)) (some text)
  | _ => .boundless (some text)

def isNullWord (text : String) : Bool := ["", "~", "null", "Null", "NULL"].contains text

def flag? (text : String) : Option Bool :=
  if ["true", "True", "TRUE"].contains text then some true
  else if ["false", "False", "FALSE"].contains text then some false
  else none

def plainNode (text : String) : Node :=
  let cs := text.toList
  let value (v : Json) : Node := .scalar v (some text)
  if isNullWord text then value .null
  else match flag? text, (integer? cs).filter fitsWide with
    | some b, _ => value (.bool b)
    | none, some n => integerNode n text
    | none, none =>
      match (if isZeroPadded cs then none else anyFloat? text) with
      | some x => doubleNode x text
      | none => value (.str text)

/-! ## Tags -/

/-- A tag in front of a node: one of the core of YAML with the name of a kind, one of the document's
own, which has no meaning here, or any other. -/
inductive Tag where
  | core (kind : String)
  | own (name : String)
  | foreign
deriving DecidableEq, Repr

namespace Tag

def coreStart : List Char := "tag:yaml.org,2002:".toList

def ofChars (cs : List Char) : Tag :=
  if coreStart.isPrefixOf cs then .core (String.ofList (cs.drop coreStart.length))
  else match cs with
    | '!' :: name => .own (String.ofList name)
    | _ => .foreign

/-- What a scalar with these characters is under this tag, for a free-form value. It has no value
unless they spell one of the tag's kind; where the tag names no kind it is a text. -/
def meaning (t : Tag) (text : String) : Node :=
  let allowed (n : Option Node) : Node := n.getD (.unvalued text)
  match t with
  | .core "null" => if text != "" && isNullWord text then .scalar .null none else .unvalued text
  | .core "bool" => allowed ((flag? text).map fun b => .scalar (.bool b) none)
  | .core "float" => allowed ((anyFloat? text).map (doubleNode · text))
  | .core "int" => allowed ((integer? text.toList).map (integerNode · text))
  | .own _ => .unvalued text
  | _ => .scalar (.str text) none

def word? : Tag → Option String
  | .own name => some name
  | _ => none

def onScalar (t : Tag) (text : String) (bare : Node) : Node :=
  .tagged t.word? (t.meaning text) bare

/-- A collection under this tag, which matters only if it is of the document's own. -/
def onCollection (t : Tag) (bare : Node) : Node :=
  match t with
  | .own name => .tagged (some name) (.unvalued "") bare
  | _ => bare

end Tag

end StateCheck.Yaml
