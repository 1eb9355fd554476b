import StateCheck.Mock.Config
import StateCheck.Run.Trace
/-!
Test suites: a machine, its mocks and the cases to run.

Every case has an input and may say what it expects of the output, the path, the error, single
states and containers. The machine and the mocks stand in the suite itself or in files
(`DocumentRef`).
-/
namespace StateCheck
set_option autoImplicit false

/-- A document given in place or by the path of its file. -/
inductive DocumentRef where
  | path (reference : String)
  | inline (value : Json)

structure SuiteSettings where
  maxConcurrency : Option Nat := none
  stopOnFailure : Option Bool := none
  seed : Option Nat := none
  maxSteps : Option Nat := none
  /-- The time limit of a case in milliseconds, unless the case has its own. -/
  timeout : Option Nat := none

inductive MatchMode where
  | exact
  | lenient
deriving DecidableEq, Repr

namespace MatchMode

def words : List (String × MatchMode) := [("exact", .exact), ("partial", .lenient)]

def word : MatchMode → String
  | exact => "exact"
  | lenient => "partial"

end MatchMode

structure MatchingSettings where
  outputs : MatchMode := .exact
  paths : MatchMode := .exact
deriving DecidableEq, Repr

/-- An error that is expected, by its name alone or with a part of its cause. -/
inductive ExpectedError where
  | name (errorType : String)
  | detailed (errorType : String) (cause : Option String)
deriving DecidableEq, Repr

namespace ExpectedError

def errorType : ExpectedError → String
  | name errorType => errorType
  | detailed errorType _ => errorType

def cause? : ExpectedError → Option String
  | name _ => none
  | detailed _ cause => cause

end ExpectedError

/-- What is expected of the first visit of a state, at any depth. -/
structure StateExpectation where
  state : String
  input : Option Json
  output : Option Json

/-- What is expected of the first execution of a container: the number of its scopes and the path
of each. -/
structure ScopesExpectation where
  state : String
  count : Option Nat
  paths : Option (List (List String))
deriving DecidableEq

structure TestCase where
  name : String
  description : Option String
  input : Json
  expectedOutput : Option Json
  expectedPath : Option (List String)
  expectedError : Option ExpectedError
  mockOverrides : List MockRule
  skip : Bool
  /-- Once a case is marked so, only marked cases run. -/
  only : Bool
  timeout : Option Nat
  stateExpectations : List StateExpectation
  mapExpectations : List ScopesExpectation
  parallelExpectations : List ScopesExpectation

structure TestSuite where
  version : Option String
  name : String
  description : Option String
  stateMachine : DocumentRef
  baseMock : Option DocumentRef
  settings : SuiteSettings
  assertions : MatchingSettings
  testCases : List TestCase

namespace TestSuite

def isFocused (s : TestSuite) : Bool := s.testCases.any (·.only)

end TestSuite

/-! ## Reading -/

/-- A string is the path of a file, anything else the document itself. -/
def DocumentRef.fit : Fit DocumentRef := fun n =>
  (n.settled?.bind Node.toJson?).map fun
    | .str reference => .path reference
    | value => .inline value

def SuiteSettings.fit : Fit SuiteSettings := fun n => do
  let r ← n.record? ["maxConcurrency", "stopOnFailure", "seed", "maxSteps", "timeout"]
  let maxConcurrency ← r.optional "maxConcurrency" Fit.natural
  let stopOnFailure ← r.optional "stopOnFailure" Fit.flag
  let seed ← r.optional "seed" Fit.natural
  let maxSteps ← r.optional "maxSteps" Fit.natural
  let timeout ← r.optional "timeout" Fit.natural
  return { maxConcurrency, stopOnFailure, seed, maxSteps, timeout }

def MatchingSettings.fit : Fit MatchingSettings := fun n => do
  let r ← n.record? ["outputMatching", "pathMatching"]
  let outputs ← r.defaulted "outputMatching" .exact (Fit.word MatchMode.words)
  let paths ← r.defaulted "pathMatching" .exact (Fit.word MatchMode.words)
  return { outputs, paths }

/-- A name or a mapping. -/
def ExpectedError.fit : Fit ExpectedError := fun n => do
  match ← n.settled? with
  | .scalar (.str errorType) _ => return .name errorType
  | .mapping entries =>
    let r ← (Node.mapping entries).record? ["type", "cause"]
    let errorType ← r.required "type" Fit.text
    let cause ← r.optional "cause" Fit.text
    return .detailed errorType cause
  | _ => none

def StateExpectation.fit : Fit StateExpectation := fun n => do
  let r ← n.record? ["state", "input", "output"]
  let state ← r.required "state" Fit.text
  let input ← r.optional "input" Fit.value
  let output ← r.optional "output" Fit.value
  return { state, input, output }

/-- The expectation of a container whose scopes go by a noun, `iteration` or `branch`. -/
def ScopesExpectation.fit (noun : String) : Fit ScopesExpectation := fun n => do
  let r ← n.record? ["state", noun ++ "Count", noun ++ "Paths"]
  let state ← r.required "state" Fit.text
  let count ← r.optional (noun ++ "Count") Fit.natural
  let paths ← r.optional (noun ++ "Paths") Fit.paths
  return { state, count, paths }

def TestCase.fit : Fit TestCase := fun n => do
  let r ← n.record? ["name", "description", "input", "expectedOutput", "expectedPath",
    "expectedError", "mockOverrides", "skip", "only", "timeout", "stateExpectations",
    "mapExpectations", "parallelExpectations"]
  let name ← r.required "name" Fit.text
  let description ← r.optional "description" Fit.text
  let input ← r.defaulted "input" Json.empty Fit.value
  let expectedOutput ← r.optional "expectedOutput" Fit.value
  let expectedPath ← r.optional "expectedPath" (Fit.list Fit.text)
  let expectedError ← r.optional "expectedError" ExpectedError.fit
  let mockOverrides ← r.defaulted "mockOverrides" [] (Fit.list MockRule.fit)
  let skip ← r.defaulted "skip" false Fit.flag
  let only ← r.defaulted "only" false Fit.flag
  let timeout ← r.optional "timeout" Fit.natural
  let stateExpectations ← r.defaulted "stateExpectations" [] (Fit.list StateExpectation.fit)
  let mapExpectations ← r.defaulted "mapExpectations" []
    (Fit.list (ScopesExpectation.fit "iteration"))
  let parallelExpectations ← r.defaulted "parallelExpectations" []
    (Fit.list (ScopesExpectation.fit "branch"))
  return { name, description, input, expectedOutput, expectedPath, expectedError, mockOverrides,
           skip, only, timeout, stateExpectations, mapExpectations, parallelExpectations }

def TestSuite.fit : Fit TestSuite := fun n => do
  let r ← n.record? ["version", "name", "description", "stateMachine", "baseMock", "settings",
    "assertions", "testCases"]
  let version ← r.optional "version" Fit.text
  let name ← r.required "name" Fit.text
  let description ← r.optional "description" Fit.text
  let stateMachine ← r.required "stateMachine" DocumentRef.fit
  let baseMock ← r.optional "baseMock" DocumentRef.fit
  let settings ← r.defaulted "settings" {} SuiteSettings.fit
  let assertions ← r.defaulted "assertions" {} MatchingSettings.fit
  let testCases ← r.required "testCases" (Fit.list TestCase.fit)
  return { version, name, description, stateMachine, baseMock, settings, assertions, testCases }

/-! ## Writing

Absent options and empty lists are left out; the input and the two marks of a case, and the
settings and the matching of a suite, always stand. -/

namespace Json

def listEntry (key : String) (items : List Json) : List (String × Json) :=
  if items.isEmpty then [] else [(key, .arr items)]

end Json

def DocumentRef.toJson : DocumentRef → Json
  | .path reference => .str reference
  | .inline value => value

def SuiteSettings.toJson (s : SuiteSettings) : Json :=
  .object (Json.optionalEntry "maxConcurrency" (s.maxConcurrency.map Json.ofNat) ++
    Json.optionalEntry "stopOnFailure" (s.stopOnFailure.map .bool) ++
    Json.optionalEntry "seed" (s.seed.map Json.ofNat) ++
    Json.optionalEntry "maxSteps" (s.maxSteps.map Json.ofNat) ++
    Json.optionalEntry "timeout" (s.timeout.map Json.ofNat))

def MatchingSettings.toJson (s : MatchingSettings) : Json :=
  .object [("outputMatching", .str s.outputs.word), ("pathMatching", .str s.paths.word)]

def ExpectedError.toJson : ExpectedError → Json
  | .name errorType => .str errorType
  | .detailed errorType cause =>
    .object (("type", .str errorType) :: Json.optionalEntry "cause" (cause.map .str))

def StateExpectation.toJson (e : StateExpectation) : Json :=
  .object (("state", .str e.state) :: Json.optionalEntry "input" e.input ++
    Json.optionalEntry "output" e.output)

def ScopesExpectation.toJson (noun : String) (e : ScopesExpectation) : Json :=
  .object (("state", .str e.state) ::
    Json.optionalEntry (noun ++ "Count") (e.count.map Json.ofNat) ++
    Json.optionalEntry (noun ++ "Paths") (e.paths.map Json.ofPaths))

def TestCase.toJson (c : TestCase) : Json :=
  .object (("name", .str c.name) :: ("input", c.input) :: ("skip", .bool c.skip) ::
    ("only", .bool c.only) ::
    Json.optionalEntry "description" (c.description.map .str) ++
    Json.optionalEntry "expectedOutput" c.expectedOutput ++
    Json.optionalEntry "expectedPath" (c.expectedPath.map Json.ofStrings) ++
    Json.optionalEntry "expectedError" (c.expectedError.map (·.toJson)) ++
    Json.listEntry "mockOverrides" (c.mockOverrides.map (·.toJson)) ++
    Json.optionalEntry "timeout" (c.timeout.map Json.ofNat) ++
    Json.listEntry "stateExpectations" (c.stateExpectations.map (·.toJson)) ++
    Json.listEntry "mapExpectations" (c.mapExpectations.map (·.toJson "iteration")) ++
    Json.listEntry "parallelExpectations" (c.parallelExpectations.map (·.toJson "branch")))

def TestSuite.toJson (s : TestSuite) : Json :=
  .object (("name", .str s.name) :: ("stateMachine", s.stateMachine.toJson) ::
    ("settings", s.settings.toJson) :: ("assertions", s.assertions.toJson) ::
    ("testCases", .arr (s.testCases.map (·.toJson))) ::
    Json.optionalEntry "version" (s.version.map .str) ++
    Json.optionalEntry "description" (s.description.map .str) ++
    Json.optionalEntry "baseMock" (s.baseMock.map (·.toJson)))

end StateCheck
