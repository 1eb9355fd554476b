import StateCheck.Json.Basic
import StateCheck.Text.Blank
/-!
The patterns of conditional mocks.

A pattern matches a value that has everything the pattern names; further keys of the value do not
matter. An object whose keys all start with `$` holds operators instead, each of which has to hold.
-/
namespace StateCheck
set_option autoImplicit false

namespace Pattern

/-- Equality of two values at the leaves of a pattern; numbers are equal by value. -/
def leafEquals (a b : Json) : Bool :=
  match a, b with
  | .num x, .num y => x.cmp? y == some .eq
  | a, b => a.same b

def order? (a b : Json) : Option Ordering :=
  match a, b with
  | .str x, .str y => some (compare x y)
  | a, b => a.cmpNumbers? b

def operatorHolds (op : String) (arg actual : Json) : Bool :=
  match op with
  | "$eq" => leafEquals arg actual
  | "$ne" => !leafEquals arg actual
  | "$gt" => (order? actual arg).any (·.isGT)
  | "$gte" => (order? actual arg).any (·.isGE)
  | "$lt" => (order? actual arg).any (·.isLT)
  | "$lte" => (order? actual arg).any (·.isLE)
  | "$in" => arg.asArray?.any fun options => options.any fun o => leafEquals o actual
  | "$contains" =>
    match actual with
    | .str s => arg.asString?.any fun part => Text.contains part.toList s.toList
    | .arr items => items.any fun item => leafEquals arg item
    | _ => false
  | _ => false

/-- Whether an operator holds of a value that may be missing: of a missing one only `$ne` does,
and `$exists` when it asks for that. -/
def operatorMatches (op : String) (arg : Json) (actual : Option Json) : Bool :=
  if op = "$exists" then (arg.asBool?.getD true) == actual.isSome
  else match actual with
    | none => op == "$ne"
    | some v => operatorHolds op arg v

/-- Whether an object holds operators: it is not empty and every key starts with `$`. -/
def isOperators (fields : Fields) : Bool :=
  !fields.isEmpty && fields.all fun (key, _) => key.startsWith "$"

mutual
def holds (pattern : Json) (actual : Option Json) : Bool :=
  match pattern with
  | .obj fields =>
    if isOperators fields then fields.all fun (op, arg) => operatorMatches op arg actual
    else match actual with
      | some (.obj found) => fieldsHold fields found
      | _ => false
  | .arr items =>
    match actual with
    | some (.arr values) => itemsHold items values
    | _ => false
  | .null => actual.any (leafEquals .null)
  | .bool b => actual.any (leafEquals (.bool b))
  | .num n => actual.any (leafEquals (.num n))
  | .str s => actual.any (leafEquals (.str s))

def fieldsHold (fields : List (String × Json)) (found : Fields) : Bool :=
  match fields with
  | [] => true
  | (key, sub) :: rest => holds sub (Fields.get? key found) && fieldsHold rest found

def itemsHold (items values : List Json) : Bool :=
  match items, values with
  | [], [] => true
  | p :: ps, v :: vs => holds p (some v) && itemsHold ps vs
  | _, _ => false
end

def unwrapped? : Json → Option Json
  | .obj [("input", inner)] => some inner
  | _ => none

end Pattern

/-- Whether the pattern of a condition matches an input; a pattern wrapped in the one key `input`
may also match without the wrapping. -/
def patternMatches (pattern input : Json) : Bool :=
  (Pattern.unwrapped? pattern).any (fun inner => Pattern.holds inner (some input)) ||
    Pattern.holds pattern (some input)

end StateCheck
