import StateCheck.Suite.Case
import StateCheck.Toml.Reader
/-!
The settings of a project, read from its `stepcheck.toml`.

Relative directories are meant from the place of the file. What the file leaves open is decided by
the settings of the suite and then by the defaults.
-/
namespace StateCheck
set_option autoImplicit false

structure ProjectConfig where
  stateMachines : Option String := none
  mocks : Option String := none
  testSuites : Option String := none
  maxConcurrency : Option Nat := none
  maxSteps : Option Nat := none
  seed : Option Nat := none
  stopOnFailure : Option Bool := none
  exhaustion : Option Exhaustion := none
deriving DecidableEq, Repr

namespace ProjectConfig

def fileName : String := "stepcheck.toml"

/-- The fields of a section, and no others. -/
def sectionOf (names : List String) : Fit Record := fun n =>
  if n.onlyFields names then n.record? names else none

def fit : Fit ProjectConfig := fun n => do
  let r ← sectionOf ["paths", "runner", "mock"] n
  let paths : Record ← r.defaulted "paths" [] (sectionOf ["state_machines", "mocks", "test_suites"])
  let runner : Record ← r.defaulted "runner" []
    (sectionOf ["max_concurrency", "max_steps", "seed", "stop_on_failure"])
  let mock : Record ← r.defaulted "mock" [] (sectionOf ["exhaustion"])
  let stateMachines ← paths.optional "state_machines" Fit.text
  let mocks ← paths.optional "mocks" Fit.text
  let testSuites ← paths.optional "test_suites" Fit.text
  let maxConcurrency ← runner.optional "max_concurrency" Fit.natural
  let maxSteps ← runner.optional "max_steps" Fit.natural
  let seed ← runner.optional "seed" Fit.natural
  let stopOnFailure ← runner.optional "stop_on_failure" Fit.flag
  let exhaustion ← mock.optional "exhaustion" (Fit.word Exhaustion.words)
  return { stateMachines, mocks, testSuites, maxConcurrency, maxSteps, seed, stopOnFailure,
           exhaustion }

/-- The settings with their directories seen from the place of the file. -/
def rebase (c : ProjectConfig) (dir : String) : ProjectConfig :=
  let moved (path : Option String) : Option String := path.map (Location.join dir)
  { c with
    stateMachines := moved c.stateMachines
    mocks := moved c.mocks
    testSuites := moved c.testSuites }

def parse? (text path : String) : Option ProjectConfig :=
  ((Toml.read? text).bind fit).map fun c =>
    match Location.parent? path with
    | some dir => c.rebase dir
    | none => c

/-- The options of a suite run: the defaults, then this project, then the suite. -/
def runOptions (c : ProjectConfig) (settings : SuiteSettings) : RunOptions :=
  let defaults : RunOptions := {}
  let project : RunOptions := { defaults with
    maxConcurrency := c.maxConcurrency.getD defaults.maxConcurrency
    maxSteps := c.maxSteps.getD defaults.maxSteps
    seed := c.seed.or defaults.seed
    stopOnFailure := c.stopOnFailure.getD defaults.stopOnFailure
    exhaustion := c.exhaustion.getD defaults.exhaustion }
  project.withSettings settings

def searchPaths (c : ProjectConfig) (suiteFile : String) : SearchPaths :=
  { SearchPaths.ofSuiteFile suiteFile with stateMachines := c.stateMachines, mocks := c.mocks }

variable {m : Type → Type} [Monad m]

/-- The path of a suite: as given, or else below the directory for suites when it is there. -/
def locateSuite (c : ProjectConfig) (files : Files m) (suite : String) : m String := do
  if Location.isAbsolute suite || (← files.isPresent suite) then return suite
  match c.testSuites with
  | none => return suite
  | some dir =>
    let path := Location.join dir suite
    return if ← files.isPresent path then path else suite

/-- The path of a mock file: as given, or else below the directory for mocks. -/
def locateMock (c : ProjectConfig) (files : Files m) (mock : String) : m String := do
  match c.mocks with
  | none => return mock
  | some dir =>
    if Location.isAbsolute mock || (← files.isPresent mock) then return mock
    return Location.join dir mock

end ProjectConfig
end StateCheck
