import StateCheck.Mock.Config
import StateCheck.Mock.Pattern
/-!
Answering task calls from a mock configuration.

The answer to a call depends on the rule of the state, on how often the state was called before and
on the input (`MockRule.answer`). The engine counts the calls of every state.
-/
namespace StateCheck
set_option autoImplicit false

/-- What a stateful rule does once its responses have run out. -/
inductive Exhaustion where
  | repeatLast
  | error
deriving DecidableEq, Repr, Inhabited

namespace Exhaustion

def words : List (String × Exhaustion) := [("repeat-last", .repeatLast), ("error", .error)]

def word : Exhaustion → String
  | repeatLast => "repeat-last"
  | error => "error"

end Exhaustion

structure TaskFailure where
  error : String
  cause : Option String
deriving DecidableEq

inductive MockOutcome where
  | value (v : Json)
  | failure (f : TaskFailure)

structure MockResponse where
  outcome : MockOutcome
  delay : Option Nat

namespace MockOutcome

def ofError (e : MockError) : MockOutcome := .failure ⟨e.errorType, e.cause⟩

def refuse (error cause : String) : MockOutcome := .failure ⟨error, some cause⟩

end MockOutcome

namespace MockRule

/-- What a matching condition answers: its error, else its response, else null. -/
def conditionOutcome (c : MockCondition) : MockOutcome :=
  match c.error with
  | some e => .ofError e
  | none => .value (Json.ofOption c.response)

/-- The outcome of the call number `index`, from zero, of a rule for `state`. -/
def outcome (exhaustion : Exhaustion) (state : String) (behavior : MockBehavior) (index : Nat)
    (input : Json) : MockOutcome :=
  match behavior with
  | .fixed response => .value response
  | .conditional conditions default =>
    match conditions.find? (fun c => patternMatches c.pattern input) with
    | some c => conditionOutcome c
    | none =>
      match default with
      | some v => .value v
      | none => .refuse "NoMatchingCondition" s!"no condition matched the input of state '{state}'"
  | .stateful responses =>
    match responses[index]?, responses.getLast?, exhaustion with
    | some v, _, _ => .value v
    | none, some last, .repeatLast => .value last
    | _, _, _ =>
      let called := s!"state '{state}' was called {index + 1} times"
      .refuse "MockResponsesExhausted"
        s!"{called} but only {responses.length} responses are configured"
  | .error e => .ofError e

/-- The answer to the call number `index` of a state with this rule, if it has one. -/
def answer (exhaustion : Exhaustion) (state : String) (rule : Option MockRule) (index : Nat)
    (input : Json) : MockResponse :=
  match rule with
  | none => ⟨.refuse "NoMockDefined" s!"no mock is defined for state '{state}'", none⟩
  | some r => ⟨outcome exhaustion state r.behavior index input, r.delay⟩

end MockRule

abbrev CallCounts := List (String × Nat)

namespace CallCounts

def count (calls : CallCounts) (state : String) : Nat := (calls.lookup state).getD 0

def bump (state : String) : CallCounts → CallCounts
  | [] => [(state, 1)]
  | (s, n) :: rest => if s = state then (s, n + 1) :: rest else (s, n) :: bump state rest

end CallCounts

/-- A configuration at work: its rules and the calls made so far. -/
structure MockEngine where
  config : MockConfig
  exhaustion : Exhaustion := .repeatLast
  calls : CallCounts := []

namespace MockEngine

def callCount (e : MockEngine) (state : String) : Nat := e.calls.count state

def hasRule (e : MockEngine) (state : String) : Bool := (e.config.ruleFor? state).isSome

def resolve (e : MockEngine) (state : String) (input : Json) : MockResponse × MockEngine :=
  (MockRule.answer e.exhaustion state (e.config.ruleFor? state) (e.callCount state) input,
    { e with calls := e.calls.bump state })

end MockEngine
end StateCheck
