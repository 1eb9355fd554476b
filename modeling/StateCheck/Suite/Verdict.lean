import StateCheck.Suite.Matching
import StateCheck.Text.Blank
/-!
The verdict on a case: everything in a trace that is not as expected.

`checkCase` makes every check of a case, whatever the others find, and lists the mismatches in the
order error, output, path, states, maps, parallels.
-/
namespace StateCheck
set_option autoImplicit false

inductive AssertionKind where
  | output
  | path
  | error
  | state
  | map
  | parallel
  | timeout
deriving DecidableEq, Repr

namespace AssertionKind

def word : AssertionKind → String
  | output => "output"
  | path => "path"
  | error => "error"
  | state => "state"
  | map => "map"
  | parallel => "parallel"
  | timeout => "timeout"

end AssertionKind

/-- A mismatch, with the two values where there are any. -/
structure AssertionFailure where
  kind : AssertionKind
  message : String
  expected : Option Json := none
  actual : Option Json := none

namespace AssertionFailure

def compared (kind : AssertionKind) (message : String) (expected actual : Json) :
    AssertionFailure :=
  ⟨kind, message, some expected, some actual⟩

def timeout (limit elapsed : Nat) : AssertionFailure :=
  { kind := .timeout, message := s!"took {elapsed}ms, limit is {limit}ms" }

def toJson (f : AssertionFailure) : Json :=
  .obj ([("kind", .str f.kind.word), ("message", .str f.message)] ++
    Json.optionalEntry "expected" f.expected ++ Json.optionalEntry "actual" f.actual)

end AssertionFailure

namespace Verdict

def causeContains (part : String) (cause : Option String) : Bool :=
  cause.any fun c => Text.contains part.toList c.toList

/-- An expected error against the one that happened: first the name, then the cause. -/
def errorFailures (expected : ExpectedError) (actual : TraceError) : List AssertionFailure :=
  if expected.errorType ≠ actual.error then
    [.compared .error s!"expected error '{expected.errorType}' but got '{actual.error}'"
      (.str expected.errorType) (.str actual.error)]
  else
    match expected.cause? with
    | none => []
    | some part =>
      if causeContains part actual.cause then []
      else [.compared .error s!"error cause does not contain '{part}'" (.str part)
        (Json.ofOption (actual.cause.map .str))]

def unexpectedError (actual : TraceError) : AssertionFailure where
  kind := .error
  message := match actual.cause with
    | some cause => s!"execution failed with '{actual.error}': {cause}"
    | none => s!"execution failed with '{actual.error}'"

def checkError (expected : Option ExpectedError) (actual : Option TraceError) :
    List AssertionFailure :=
  match expected, actual with
  | some e, some a => errorFailures e a
  | some e, none =>
    [{ kind := .error
       message := s!"expected error '{e.errorType}' but the execution succeeded" }]
  | none, some a => [unexpectedError a]
  | none, none => []

def checkValue (kind : AssertionKind) (message : String) (mode : MatchMode) (expected : Option Json)
    (actual : Json) : List AssertionFailure :=
  match expected with
  | none => []
  | some e => if valuesMatch mode e actual then [] else [.compared kind message e actual]

def checkPath (mode : MatchMode) (expected : Option (List String)) (actual : List String) :
    List AssertionFailure :=
  match expected with
  | none => []
  | some e =>
    if pathMatches mode e actual then []
    else [.compared .path "execution path did not match" (Json.ofStrings e) (Json.ofStrings actual)]

/-- One expectation of a state against its first visit; a visit without output counts as null. -/
def checkState (mode : MatchMode) (trace : ExecutionTrace) (e : StateExpectation) :
    List AssertionFailure :=
  match trace.firstVisit? e.state with
  | none => [{ kind := .state, message := s!"state '{e.state}' was never executed" }]
  | some visit =>
    checkValue .state s!"input of state '{e.state}' did not match" mode e.input visit.input ++
    checkValue .state s!"output of state '{e.state}' did not match" mode e.output
      (Json.ofOption visit.output)

/-- An expectation of scopes against the paths they took: first the count, then the paths. -/
def checkScopes (kind : AssertionKind) (noun : String) (mode : MatchMode) (e : ScopesExpectation)
    (actual : List (List String)) : List AssertionFailure :=
  (match e.count with
    | none => []
    | some n =>
      if n = actual.length then []
      else [.compared kind s!"'{e.state}' ran {actual.length} {noun}(s), expected {n}"
        (Json.ofNat n) (Json.ofNat actual.length)]) ++
  (match e.paths with
    | none => []
    | some paths =>
      if pathListsMatch mode paths actual then []
      else [.compared kind s!"{noun} paths of '{e.state}' did not match" (Json.ofPaths paths)
        (Json.ofPaths actual)])

def checkContainer (kind : AssertionKind) (noun : String) (mode : MatchMode)
    (first : Option (List (List String))) (e : ScopesExpectation) : List AssertionFailure :=
  match first with
  | none => [{ kind, message := s!"{kind.word} state '{e.state}' was never executed" }]
  | some actual => checkScopes kind noun mode e actual

def checkMap (mode : MatchMode) (trace : ExecutionTrace) (e : ScopesExpectation) :
    List AssertionFailure :=
  checkContainer .map "iteration" mode
    ((trace.mapExecutionsOf e.state).head?.map (·.iterationPaths)) e

def checkParallel (mode : MatchMode) (trace : ExecutionTrace) (e : ScopesExpectation) :
    List AssertionFailure :=
  checkContainer .parallel "branch" mode
    ((trace.parallelExecutionsOf e.state).head?.map (·.branchPaths)) e

end Verdict

open Verdict in
/-- Everything in a trace that is not as a case expects. -/
def checkCase (case : TestCase) (trace : ExecutionTrace) (matching : MatchingSettings) :
    List AssertionFailure :=
  checkError case.expectedError trace.error ++
  checkValue .output "output did not match" matching.outputs case.expectedOutput trace.output ++
  checkPath matching.paths case.expectedPath trace.executionPath ++
  case.stateExpectations.flatMap (checkState matching.outputs trace) ++
  case.mapExpectations.flatMap (checkMap matching.paths trace) ++
  case.parallelExpectations.flatMap (checkParallel matching.paths trace)

end StateCheck
