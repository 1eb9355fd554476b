import StateCheck.Document.Record
import StateCheck.Machine.DefinitionError
/-!
Mock configurations: what the tasks of a machine answer.

A configuration is a list of rules, each for the states of one name. The first rule of a name
counts (`MockConfig.ruleFor?`); overrides replace it or are appended (`MockConfig.mergedWith`).
-/
namespace StateCheck
set_option autoImplicit false

structure MockError where
  errorType : String
  cause : Option String
deriving DecidableEq

structure MockCondition where
  pattern : Json
  response : Option Json
  error : Option MockError

inductive MockBehavior where
  | fixed (response : Json)
  /-- The response of the first condition that matches, else the default. -/
  | conditional (conditions : List MockCondition) (default : Option Json)
  /-- One response per call. -/
  | stateful (responses : List Json)
  | error (error : MockError)

/-- A rule for the states of one name, with a simulated delay in milliseconds. -/
structure MockRule where
  state : String
  delay : Option Nat
  behavior : MockBehavior

structure MockConfig where
  version : Option String := none
  mocks : List MockRule := []

instance : Inhabited MockConfig := ⟨{}⟩

namespace MockConfig

def ruleFor? (config : MockConfig) (state : String) : Option MockRule :=
  config.mocks.find? (·.state == state)

/-- The rules with one more: in the place of the first rule of the same state, or at the end. -/
def putRule (rule : MockRule) : List MockRule → List MockRule
  | [] => [rule]
  | r :: rest => if r.state = rule.state then rule :: rest else r :: putRule rule rest

/-- The configuration with overriding rules laid over it, one after the other. -/
def mergedWith (config : MockConfig) (overrides : List MockRule) : MockConfig :=
  { config with mocks := overrides.foldl (fun rules rule => putRule rule rules) config.mocks }

end MockConfig

/-! ## Reading -/

namespace MockError

def fit : Fit MockError := fun n => do
  let r ← n.record? ["type", "cause"]
  let errorType ← r.required "type" Fit.text
  let cause ← r.optional "cause" Fit.text
  return { errorType, cause }

end MockError

namespace MockCondition

def fit : Fit MockCondition := fun n => do
  let r ← n.record? ["when", "response", "error"]
  let pattern ← r.required "when" Fit.value
  let response ← r.optional "response" Fit.value
  let error ← r.optional "error" MockError.fit
  return { pattern, response, error }

end MockCondition

namespace MockBehavior

inductive Kind where
  | fixed
  | conditional
  | stateful
  | error
deriving DecidableEq, Repr

def kinds : List (String × Kind) :=
  [("fixed", .fixed), ("conditional", .conditional), ("stateful", .stateful), ("error", .error)]

/-- A kind by its word, or by its place among the kinds. -/
def fitKind : Fit Kind
  | .scalar (.str s) _ => kinds.lookup s
  | n => (Fit.natural n).bind fun i => kinds[i]?.map (·.2)

def fit : Fit MockBehavior := fun n => do
  let r ← n.record? ["type"]
  match ← r.required "type" fitKind with
  | .fixed => do
    let r ← n.record? ["response"]
    return .fixed (← r.required "response" Fit.value)
  | .conditional => do
    let r ← n.record? ["conditions", "default"]
    let conditions ← r.required "conditions" (Fit.list MockCondition.fit)
    let default ← r.optional "default" Fit.value
    return .conditional conditions default
  | .stateful => do
    let r ← n.record? ["responses"]
    return .stateful (← r.required "responses" (Fit.list Fit.value))
  | .error => do
    let r ← n.record? ["error"]
    return .error (← r.required "error" MockError.fit)

end MockBehavior

namespace MockRule

/-- The fields of every rule, whatever it answers. -/
def ownFields : List String := ["state", "delay"]

/-- The other fields of a rule, with every scalar settled on its value. -/
def behaviorFields? (entries : List (Node × Node)) : Option (List (Node × Node)) := do
  let named ← entries.mapM fun (key, n) => key.text?.map (·, n)
  (named.filter fun (key, _) => !ownFields.contains key).mapM fun (key, n) =>
    n.settled?.map (Node.scalar (.str key) none, ·)

def fit : Fit MockRule
  | .mapping entries => do
    let r ← (Node.mapping entries).record? ownFields
    let state ← r.required "state" Fit.text
    let delay ← r.optional "delay" Fit.natural
    let behavior ← MockBehavior.fit (.mapping (← behaviorFields? entries))
    return { state, delay, behavior }
  | .tagged _ _ bare => fit bare
  | _ => none

end MockRule

namespace MockConfig

def fit : Fit MockConfig := fun n => do
  let r ← n.record? ["version", "mocks"]
  let version ← r.optional "version" Fit.text
  let mocks ← r.defaulted "mocks" [] (Fit.list MockRule.fit)
  return { version, mocks }

def ofNode (n : Node) : Except DefinitionError MockConfig :=
  match fit n with
  | some config => .ok config
  | none => .error (.document .mockConfig)

def ofJson (v : Json) : Except DefinitionError MockConfig := ofNode (Node.ofJson v)

end MockConfig

/-! ## Writing -/

namespace MockError

def fields (e : MockError) : List (String × Json) :=
  ("type", .str e.errorType) :: (e.cause.map fun c => ("cause", Json.str c)).toList

def toJson (e : MockError) : Json := .object e.fields

end MockError

namespace MockCondition

def toJson (c : MockCondition) : Json :=
  .object (("when", c.pattern) :: (c.response.map fun v => ("response", v)).toList ++
    (c.error.map fun e => ("error", e.toJson)).toList)

end MockCondition

namespace MockRule

def behaviorFields : MockBehavior → List (String × Json)
  | .fixed response => [("type", .str "fixed"), ("response", response)]
  | .conditional conditions default =>
    [("type", .str "conditional"), ("conditions", .arr (conditions.map MockCondition.toJson))] ++
      (default.map fun v => ("default", v)).toList
  | .stateful responses => [("type", .str "stateful"), ("responses", .arr responses)]
  | .error e => [("type", .str "error"), ("error", e.toJson)]

def toJson (r : MockRule) : Json :=
  .object (("state", .str r.state) :: (r.delay.map fun d => ("delay", Json.ofNat d)).toList ++
    behaviorFields r.behavior)

end MockRule

namespace MockConfig

/-- The configuration as a document, absent options left out. -/
def toJson (c : MockConfig) : Json :=
  .object ((c.version.map fun v => ("version", Json.str v)).toList ++
    [("mocks", .arr (c.mocks.map MockRule.toJson))])

end MockConfig
end StateCheck
