import StateCheck.Path.Basic
/-!
The conditions of choice rules.

A condition is a tree of `And`, `Or` and `Not` over tests; a test compares what its subject path
finds with a literal or with what another path finds. `Comparison.ofKey?` reads the operator keys
of a document.
-/
namespace StateCheck
set_option autoImplicit false

inductive Comparison where
  | stringEquals
  | stringLessThan
  | stringGreaterThan
  | stringLessThanEquals
  | stringGreaterThanEquals
  | stringMatches
  | numericEquals
  | numericLessThan
  | numericGreaterThan
  | numericLessThanEquals
  | numericGreaterThanEquals
  | booleanEquals
  | timestampEquals
  | timestampLessThan
  | timestampGreaterThan
  | timestampLessThanEquals
  | timestampGreaterThanEquals
  | isNull
  | isPresent
  | isNumeric
  | isString
  | isBoolean
  | isTimestamp
deriving DecidableEq, Repr

namespace Comparison

/-- The key of a comparison in a document. -/
def name : Comparison → String
  | stringEquals => "StringEquals"
  | stringLessThan => "StringLessThan"
  | stringGreaterThan => "StringGreaterThan"
  | stringLessThanEquals => "StringLessThanEquals"
  | stringGreaterThanEquals => "StringGreaterThanEquals"
  | stringMatches => "StringMatches"
  | numericEquals => "NumericEquals"
  | numericLessThan => "NumericLessThan"
  | numericGreaterThan => "NumericGreaterThan"
  | numericLessThanEquals => "NumericLessThanEquals"
  | numericGreaterThanEquals => "NumericGreaterThanEquals"
  | booleanEquals => "BooleanEquals"
  | timestampEquals => "TimestampEquals"
  | timestampLessThan => "TimestampLessThan"
  | timestampGreaterThan => "TimestampGreaterThan"
  | timestampLessThanEquals => "TimestampLessThanEquals"
  | timestampGreaterThanEquals => "TimestampGreaterThanEquals"
  | isNull => "IsNull"
  | isPresent => "IsPresent"
  | isNumeric => "IsNumeric"
  | isString => "IsString"
  | isBoolean => "IsBoolean"
  | isTimestamp => "IsTimestamp"

def every : List Comparison := [
  stringEquals, stringLessThan, stringGreaterThan, stringLessThanEquals, stringGreaterThanEquals,
  stringMatches, numericEquals, numericLessThan, numericGreaterThan, numericLessThanEquals,
  numericGreaterThanEquals, booleanEquals, timestampEquals, timestampLessThan,
  timestampGreaterThan, timestampLessThanEquals, timestampGreaterThanEquals, isNull, isPresent,
  isNumeric, isString, isBoolean, isTimestamp]

/-- Whether the operand is a boolean that says which answer of a presence or kind test is wanted. -/
def isTypeTest : Comparison → Bool
  | isNull | isPresent | isNumeric | isString | isBoolean | isTimestamp => true
  | _ => false

def isNumericTest : Comparison → Bool
  | numericEquals | numericLessThan | numericGreaterThan | numericLessThanEquals
  | numericGreaterThanEquals => true
  | _ => false

/-- Whether there is a form with a path as operand. -/
def hasPathForm (c : Comparison) : Bool := !c.isTypeTest && c != stringMatches

def ofName? (name : String) : Option Comparison := every.find? (·.name == name)

/-- The key without the ending of the path form. -/
def pathFormBase? (key : String) : Option String :=
  match key.toList.reverse with
  | 'h' :: 't' :: 'a' :: 'P' :: rest => some (String.ofList rest.reverse)
  | _ => none

/-- The comparison that a key names, and whether it is the form with a path. -/
def ofKey? (key : String) : Option (Comparison × Bool) :=
  match ofName? key with
  | some c => some (c, false)
  | none => do
    let base ← pathFormBase? key
    let c ← ofName? base
    if c.hasPathForm then some (c, true) else none

end Comparison

inductive Operand where
  | literal (value : Json)
  | path (text : String)

inductive Condition where
  | and (items : List Condition)
  | or (items : List Condition)
  | not (inner : Condition)
  | test (subject : String) (comparison : Comparison) (operand : Operand)

end StateCheck
