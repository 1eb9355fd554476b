import StateCheck.Coverage.Tracker
import StateCheck.Run.Interpreter
import StateCheck.Suite.Prepare
import StateCheck.Suite.Result
/-!
Running one case of a suite.
-/
namespace StateCheck
set_option autoImplicit false

structure RunOptions where
  maxConcurrency : Nat := 1
  /-- Whether no further case is started once one has failed. -/
  stopOnFailure : Bool := false
  seed : Option Nat := none
  generator : Generator := default
  maxSteps : Nat := 1000
  exhaustion : Exhaustion := .repeatLast
  coverage : Bool := true
  /-- The time limit of a case in milliseconds, unless the case has its own. -/
  timeout : Option Nat := none

namespace RunOptions

/-- The options with everything that a suite sets laid over them. -/
def withSettings (o : RunOptions) (s : SuiteSettings) : RunOptions :=
  { o with
    maxConcurrency := s.maxConcurrency.getD o.maxConcurrency
    stopOnFailure := s.stopOnFailure.getD o.stopOnFailure
    seed := s.seed.or o.seed
    maxSteps := s.maxSteps.getD o.maxSteps
    timeout := s.timeout.or o.timeout }

def execution (o : RunOptions) (case : TestCase) : ExecutionOptions :=
  { maxSteps := o.maxSteps, seed := o.seed, generator := o.generator,
    executionName := some case.name }

end RunOptions

/-- A finished case, with what it covered when it was run. -/
structure CaseRun where
  result : TestResult
  coverage : Option CoverageTracker

namespace CaseRun

def skipped (case : TestCase) (reason : String) : CaseRun :=
  ⟨.skipped case.name reason, none⟩

end CaseRun

namespace PreparedSuite

/-- The trace of a case, run with a fresh mock engine. -/
def caseTrace (p : PreparedSuite) (case : TestCase) (o : RunOptions) : ExecutionTrace :=
  let engine : MockEngine :=
    { config := p.baseMock.mergedWith case.mockOverrides, exhaustion := o.exhaustion }
  (p.definition.execute case.input engine (o.execution case)).1

/-- Runs a case that takes `elapsed` milliseconds. -/
def runCase (p : PreparedSuite) (case : TestCase) (o : RunOptions) (elapsed : Nat) : CaseRun :=
  let trace := p.caseTrace case o
  let late := (case.timeout.or o.timeout).toList.filterMap fun limit =>
    if limit < elapsed then some (AssertionFailure.timeout limit elapsed) else none
  let failures := checkCase case trace p.suite.assertions ++ late
  { result := {
      name := case.name
      status := if failures.isEmpty then .passed else .failed
      duration := elapsed
      failures
      skipReason := none
      trace := some trace }
    coverage := some ((CoverageTracker.start p.definition).trackTrace trace) }

end PreparedSuite
end StateCheck
