import StateCheck.Condition.Basic
import StateCheck.Condition.Glob
import StateCheck.Timestamp
/-!
The truth of conditions.

Trees are evaluated from left to right and stop at the first item that decides. A test whose two
sides are not both of the kind it compares is false; a subject that finds nothing is an error,
except for the tests of presence and null.
-/
namespace StateCheck
set_option autoImplicit false

namespace Condition

inductive Relation where
  | eq
  | lt
  | gt
  | le
  | ge
deriving DecidableEq, Repr

def Relation.holds (r : Relation) (o : Ordering) : Bool :=
  match r with
  | .eq => o.isEq
  | .lt => o.isLT
  | .gt => o.isGT
  | .le => o.isLE
  | .ge => o.isGE

def timestamp? (v : Json) : Option Timestamp := v.asString?.bind Timestamp.parse?

def cmpStrings? (a b : Json) : Option Ordering :=
  match a, b with
  | .str a, .str b => some (compare a b)
  | _, _ => none

def cmpTimestamps? (a b : Json) : Option Ordering :=
  match timestamp? a, timestamp? b with
  | some a, some b => some (a.cmp b)
  | _, _ => none

def related (r : Relation) (o : Option Ordering) : Bool := o.any r.holds

def compares (c : Comparison) (left right : Json) : Bool :=
  match c with
  | .stringEquals => related .eq (cmpStrings? left right)
  | .stringLessThan => related .lt (cmpStrings? left right)
  | .stringGreaterThan => related .gt (cmpStrings? left right)
  | .stringLessThanEquals => related .le (cmpStrings? left right)
  | .stringGreaterThanEquals => related .ge (cmpStrings? left right)
  | .stringMatches =>
    match left, right with
    | .str text, .str pattern => globMatches pattern text
    | _, _ => false
  | .numericEquals => related .eq (left.cmpNumbers? right)
  | .numericLessThan => related .lt (left.cmpNumbers? right)
  | .numericGreaterThan => related .gt (left.cmpNumbers? right)
  | .numericLessThanEquals => related .le (left.cmpNumbers? right)
  | .numericGreaterThanEquals => related .ge (left.cmpNumbers? right)
  | .booleanEquals =>
    match left, right with
    | .bool a, .bool b => a == b
    | _, _ => false
  | .timestampEquals => related .eq (cmpTimestamps? left right)
  | .timestampLessThan => related .lt (cmpTimestamps? left right)
  | .timestampGreaterThan => related .gt (cmpTimestamps? left right)
  | .timestampLessThanEquals => related .le (cmpTimestamps? left right)
  | .timestampGreaterThanEquals => related .ge (cmpTimestamps? left right)
  | .isNull | .isPresent | .isNumeric | .isString | .isBoolean | .isTimestamp => false

def isOfKind (c : Comparison) (v : Json) : Bool :=
  match c with
  | .isNull => v.isNull
  | .isNumeric => v.isNumber
  | .isString => v.isString
  | .isBoolean => v.isBool
  | .isTimestamp => (timestamp? v).isSome
  | _ => false

def wanted : Operand → Bool
  | .literal (.bool b) => b
  | _ => false

def evalTypeTest (subject : String) (c : Comparison) (expected : Bool) (docs : Documents) :
    Except EvalError Bool := do
  let present := Path.isPresent subject docs
  if c = .isPresent then return present == expected
  else if c = .isNull ∧ !present then return !expected
  else
    let v ← Path.resolve subject docs
    return isOfKind c v == expected

def evalTest (subject : String) (c : Comparison) (operand : Operand) (docs : Documents) :
    Except EvalError Bool :=
  if c.isTypeTest then evalTypeTest subject c (wanted operand) docs
  else do
    let left ← Path.resolve subject docs
    let right ← match operand with
      | .literal v => pure v
      | .path text => Path.resolve text docs
    return compares c left right

mutual
def eval (docs : Documents) : Condition → Except EvalError Bool
  | .and items => evalAll docs items
  | .or items => evalAny docs items
  | .not inner => do
    let b ← eval docs inner
    return !b
  | .test subject comparison operand => evalTest subject comparison operand docs

def evalAll (docs : Documents) : List Condition → Except EvalError Bool
  | [] => .ok true
  | c :: rest => do
    if ← eval docs c then evalAll docs rest else return false

def evalAny (docs : Documents) : List Condition → Except EvalError Bool
  | [] => .ok false
  | c :: rest => do
    if ← eval docs c then return true else evalAny docs rest
end

end Condition
end StateCheck
