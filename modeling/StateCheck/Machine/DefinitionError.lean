/-!
What is wrong with a document that does not load.

Each constructor is a cause and `DefinitionError.message` words it. Scopes are named by where they
stand (`ScopeLabel`).
-/
namespace StateCheck
set_option autoImplicit false

inductive ScopeLabel where
  | topLevel
  | processor (mapState : String)
  | branch (parallelState : String) (index : Nat)
deriving DecidableEq, Repr

namespace ScopeLabel

def text : ScopeLabel → String
  | topLevel => "top-level"
  | processor name => s!"Map '{name}' ItemProcessor"
  | branch name i => s!"Parallel '{name}' branch {i}"

end ScopeLabel

inductive PolicyEntry where
  | retry (index : Nat)
  | catcher (index : Nat)
deriving DecidableEq, Repr

namespace PolicyEntry

def text : PolicyEntry → String
  | retry i => s!"Retry[{i}]"
  | catcher i => s!"Catch[{i}]"

end PolicyEntry

inductive StateFlaw where
  | notObject
  | noType
  | noResource
  | noChoices
  | emptyChoices
  | choiceTransition
  | ruleWithoutNext (index : Nat)
  | ruleWithoutVariable
  | manyOperators (subject : String)
  | noOperator (subject : String)
  | operandNotPath (key : String)
  | operandKind (key : String)
  | listNotArray (operator : String)
  | emptyList (operator : String)
  | secondsKind
  | waitDurations
  | noProcessor
  | unknownMode (mode : String)
  | emptyBatches
  | noBranches
  | emptyBranches
  | pathField (field : String)
  | nextAndEnd
  | noTransition
  | retryNotArray
  | catchNotArray
  | unknownJitter (index : Nat) (strategy : String)
  | entryWithoutNext (entry : PolicyEntry)
  | entryWithoutErrors (entry : PolicyEntry)
  | emptyErrors (entry : PolicyEntry)
  | allNotAlone (entry : PolicyEntry)
deriving DecidableEq, Repr

namespace StateFlaw

def message : StateFlaw → String
  | notObject => "state body must be a JSON object"
  | noType => "missing 'Type' field"
  | noResource => "Task state missing 'Resource'"
  | noChoices => "Choice state missing 'Choices' array"
  | emptyChoices => "Choice state must have at least one rule"
  | choiceTransition => "Choice state must not carry 'Next' or 'End'"
  | ruleWithoutNext i => s!"Choices[{i}] missing 'Next'"
  | ruleWithoutVariable => "choice rule missing 'Variable'"
  | manyOperators subject => s!"choice rule on '{subject}' has more than one operator"
  | noOperator subject => s!"choice rule on '{subject}' has no comparison operator"
  | operandNotPath key => s!"'{key}' must be a path string"
  | operandKind key => s!"operator '{key}' has an operand of the wrong type"
  | listNotArray op => s!"'{op}' must be an array"
  | emptyList op => s!"'{op}' must not be empty"
  | secondsKind => "'Seconds' must be a non-negative integer"
  | waitDurations =>
    "Wait state needs exactly one of Seconds, SecondsPath, Timestamp, TimestampPath"
  | noProcessor => "Map state missing 'ItemProcessor'"
  | unknownMode mode => s!"unknown ProcessorConfig.Mode '{mode}'"
  | emptyBatches => "ItemBatcher.MaxItemsPerBatch must be positive"
  | noBranches => "Parallel state missing 'Branches' array"
  | emptyBranches => "Parallel state must have at least one branch"
  | pathField field => s!"'{field}' must be a path starting with '$' or null"
  | nextAndEnd => "state has both 'Next' and 'End'"
  | noTransition => "state needs either 'Next' or 'End: true'"
  | retryNotArray => "'Retry' must be an array"
  | catchNotArray => "'Catch' must be an array"
  | unknownJitter i strategy => s!"Retry[{i}] has unknown JitterStrategy '{strategy}'"
  | entryWithoutNext entry => s!"{entry.text} missing 'Next'"
  | entryWithoutErrors entry => s!"{entry.text} missing 'ErrorEquals'"
  | emptyErrors entry => s!"{entry.text} has empty 'ErrorEquals'"
  | allNotAlone entry => s!"{entry.text}: 'States.ALL' must appear alone"

end StateFlaw

inductive DocumentKind where
  | stateMachine
  | mockConfig
deriving DecidableEq, Repr

namespace DocumentKind

def text : DocumentKind → String
  | stateMachine => "state machine"
  | mockConfig => "mock config"

end DocumentKind

inductive DefinitionError where
  | document (kind : DocumentKind)
  | missingField (scope : ScopeLabel) (field : String)
  | unknownStartAt (scope : ScopeLabel) (target : String)
  | danglingTransition (scope : ScopeLabel) (state target : String)
  | invalidState (state : String) (flaw : StateFlaw)
  | unsupportedType (state typeName : String)
  | unsupportedQueryLanguage (language : String)
deriving DecidableEq, Repr

namespace DefinitionError

def message : DefinitionError → String
  | document kind => s!"invalid {kind.text}"
  | missingField scope field => s!"{scope.text}: missing required field '{field}'"
  | unknownStartAt scope target =>
    s!"{scope.text}: StartAt '{target}' does not name a state in this scope"
  | danglingTransition scope state target =>
    s!"{scope.text}: state '{state}' transitions to unknown state '{target}'"
  | invalidState state flaw => s!"state '{state}': {flaw.message}"
  | unsupportedType state typeName => s!"state '{state}' has unsupported Type '{typeName}'"
  | unsupportedQueryLanguage language => s!"unsupported QueryLanguage '{language}'"

end DefinitionError
end StateCheck
