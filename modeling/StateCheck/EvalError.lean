/-!
The errors of paths, templates and intrinsic calls.

Each constructor is a cause; `EvalError.message` words it and `EvalError.name` gives the error name
that a failed run reports.
-/
namespace StateCheck
set_option autoImplicit false

/-! The error names of the States Language that this library raises or treats specially. -/

namespace ErrorName

def all := "States.ALL"
def taskFailed := "States.TaskFailed"
def timeout := "States.Timeout"
def runtime := "States.Runtime"
def noChoiceMatched := "States.NoChoiceMatched"
def intrinsicFailure := "States.IntrinsicFailure"
def itemReaderFailed := "States.ItemReaderFailed"
def fail := "States.Fail"
def executionLimitExceeded := "ExecutionLimitExceeded"

end ErrorName

inductive PathFlaw where
  | noRoot
  | emptyField
  | unterminated
  | badIndex (text : String)
  | unexpected (c : Char)
  | contextTarget
  | wildcardTarget
deriving DecidableEq

namespace PathFlaw

def message : PathFlaw → String
  | noRoot => "must start with '$' or '$$'"
  | emptyField => "empty field name"
  | unterminated => "unterminated '['"
  | badIndex text => s!"bad index '{text}'"
  | unexpected c => s!"unexpected character '{c}'"
  | contextTarget => "a write target cannot use the context root '$$'"
  | wildcardTarget => "a write target cannot contain wildcards"

end PathFlaw

inductive SyntaxFlaw where
  | trailing
  | noCall
  | missing (c : Char)
  | noSeparator
  | noArgument
  | badNumber (text : String)
  | unterminatedString
  | unterminatedEscape
deriving DecidableEq

namespace SyntaxFlaw

def message : SyntaxFlaw → String
  | trailing => "trailing characters after call"
  | noCall => "expected a call starting with 'States.'"
  | missing c => s!"expected '{c}'"
  | noSeparator => "expected ',' or ')'"
  | noArgument => "expected an argument"
  | badNumber text => s!"bad number '{text}'"
  | unterminatedString => "unterminated string literal"
  | unterminatedEscape => "unterminated escape"

end SyntaxFlaw

/-- Why an intrinsic call has no value. Kinds of values are given by name. -/
inductive CallFlaw where
  | malformed (flaw : SyntaxFlaw) (position : Nat)
  | noTemplate
  | templateKind (kind : String)
  | tooFewArguments
  | tooManyArguments
  | unprintable (kind : String)
  | arity (expected given : Nat)
  | randomArity (given : Nat)
  | notString (kind : String)
  | notArray (kind : String)
  | notInteger (value : String)
  | badText
  | chunkSize
  | zeroStep
  | rangeTooLong
  | indexOutOfBounds (index : Int)
  | unknownAlgorithm (name : String)
  | deepMerge
  | mergeKinds
  | notNumbers (left right : String)
  | numberOutOfRange
  | sumOverflow
deriving DecidableEq

namespace CallFlaw

def message : CallFlaw → String
  | malformed flaw position => s!"{flaw.message} at position {position}"
  | noTemplate => "requires a template argument"
  | templateKind kind => s!"template must be a string, got {kind}"
  | tooFewArguments => "more placeholders than arguments"
  | tooManyArguments => "more arguments than placeholders"
  | unprintable kind => s!"cannot format a {kind}"
  | arity expected given => s!"expected {expected} arguments, got {given}"
  | randomArity given => s!"expected 2 or 3 arguments, got {given}"
  | notString kind => s!"expected a string, got {kind}"
  | notArray kind => s!"expected an array, got {kind}"
  | notInteger value => s!"expected an integer, got {value}"
  | badText => "the text does not decode"
  | chunkSize => "chunk size must be positive"
  | zeroStep => "step must not be zero"
  | rangeTooLong => "range exceeds 1000 items"
  | indexOutOfBounds index => s!"index {index} out of bounds"
  | unknownAlgorithm name => s!"unsupported algorithm '{name}'"
  | deepMerge => "only shallow merge is supported"
  | mergeKinds => "both arguments must be objects"
  | notNumbers left right => s!"expected two numbers, got {left} and {right}"
  | numberOutOfRange => "number out of range"
  | sumOverflow => "addition overflow"

end CallFlaw

inductive KindFlaw where
  | dynamicValue (key : String)
  | parentNotObject (field path : String)
  | parentNotArray (index : Nat) (path : String)
deriving DecidableEq

namespace KindFlaw

def message : KindFlaw → String
  | dynamicValue key => s!"value of '{key}' must be a path or intrinsic string"
  | parentNotObject field path => s!"cannot write '{field}' in '{path}': parent is not an object"
  | parentNotArray index path => s!"cannot index [{index}] in '{path}': parent is not an array"

end KindFlaw

inductive EvalError where
  | pathNotFound (path : String)
  | invalidPath (path : String) (flaw : PathFlaw)
  | unsupportedIntrinsic (name : String)
  | intrinsicFailure (name : String) (flaw : CallFlaw)
  | typeError (flaw : KindFlaw)
deriving DecidableEq

namespace EvalError

def message : EvalError → String
  | pathNotFound path => s!"path '{path}' could not be found in the input"
  | invalidPath path flaw => s!"invalid path '{path}': {flaw.message}"
  | unsupportedIntrinsic name => s!"unsupported intrinsic function '{name}'"
  | intrinsicFailure name flaw => s!"{name}: {flaw.message}"
  | typeError flaw => s!"type error: {flaw.message}"

def name : EvalError → String
  | unsupportedIntrinsic _ | intrinsicFailure _ _ => ErrorName.intrinsicFailure
  | pathNotFound _ | invalidPath _ _ | typeError _ => ErrorName.runtime

end EvalError
end StateCheck
