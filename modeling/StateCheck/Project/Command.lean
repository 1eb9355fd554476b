import StateCheck.Json.Reader
import StateCheck.Project.Arguments
import StateCheck.Project.Config
import StateCheck.Suite.Schedule
/-!
Carrying out commands.

A command prints something and ends with a code: 0 when all went well, 1 when a run or a case
failed, 2 when something could not be loaded. Runs are simulated, so no time passes in them.
-/
namespace StateCheck
set_option autoImplicit false

inductive CommandError where
  | unreadable (path : String) (fault : FileFault)
  | invalidInput
  | invalidConfig (path : String)
  | definition (error : DefinitionError)
  | suite (error : SuiteError)
deriving DecidableEq, Repr

namespace CommandError

def message : CommandError → String
  | unreadable path fault => s!"error reading '{path}': {fault.message}"
  | invalidInput => "invalid --input"
  | invalidConfig path => s!"invalid config '{path}'"
  | definition error => error.message
  | suite error => error.message

end CommandError

structure CommandOutput where
  code : Nat
  output : String := ""
  error : Option String := none
deriving DecidableEq, Repr

structure CommandReport where
  output : String
  success : Bool

namespace Command

variable {m : Type → Type} [Monad m]

abbrev Attempt (m : Type → Type) := ExceptT CommandError m

def readText (files : Files m) (path : String) : Attempt m String := do
  match ← files.read path with
  | .ok text => return text
  | .error fault => throw (.unreadable path fault)

def ofDefinition {α : Type} (x : Except DefinitionError α) : Attempt m α :=
  match x with
  | .ok a => pure a
  | .error e => throw (.definition e)

/-- The settings in the file given, or in that of the working directory if there is one. -/
def loadConfig (files : Files m) (given : Option String) : Attempt m ProjectConfig := do
  let found ← ExceptT.lift (files.isPresent ProjectConfig.fileName)
  match given.or (if found then some ProjectConfig.fileName else none) with
  | none => return {}
  | some path =>
    match ProjectConfig.parse? (← readText files path) path with
    | some config => return config
    | none => throw (.invalidConfig path)

def loadMachine (files : Files m) (path : String) : Attempt m Machine := do
  ofDefinition (Machine.ofText (← readText files path))

/-- The input in a text, or in the file named behind an at sign. -/
def loadInput (files : Files m) (input : Option String) : Attempt m Json := do
  let text ← match input with
    | none => pure "\x7b\x7d"
    | some given =>
      match given.toList with
      | '@' :: path => readText files (String.ofList path)
      | _ => pure given
  match Json.read? text with
  | some v => return v
  | none => throw .invalidInput

/-- The mocks in a file; without one there are none. -/
def loadMocks (files : Files m) (config : ProjectConfig) (mock : Option String) :
    Attempt m MockConfig := do
  match mock with
  | none => return {}
  | some given =>
    let path ← ExceptT.lift (config.locateMock files given)
    ofDefinition (MockConfig.parse (← readText files path))

/-- A name without the extension of machine files at its end, however often it is there; characters
are given in reverse. -/
def withoutExtension : List Char → List Char
  | 'l' :: 's' :: 'a' :: '.' :: rest => withoutExtension rest
  | cs => cs

def machineName (path : String) : String :=
  match Location.stem? path with
  | some stem => String.ofList (withoutExtension stem.toList.reverse).reverse
  | none => "StateMachine"

def validLine (path : String) (machine : Machine) : String :=
  let maps := machine.containers.countP (·.kind == .map)
  let parallels := machine.containers.length - maps
  s!"valid: {path} ({machine.states.length} states, {maps} map, {parallels} parallel)\n"

def traceReport (format : TraceFormat) (trace : ExecutionTrace) : String :=
  match format with
  | .text => Report.Text.trace trace
  | .json => Report.document trace.toJson

def execute (files : Files m) (generator : Generator) (quiet : Bool) (config : ProjectConfig) :
    Command → Attempt m CommandReport
  | .validate definition => do
    let machine ← loadMachine files definition
    return ⟨if quiet then "" else validLine definition machine, true⟩
  | .run definition input mock output seed maxSteps => do
    let machine ← loadMachine files definition
    let input ← loadInput files input
    let mocks ← loadMocks files config mock
    let defaults : ExecutionOptions := {}
    let options := { defaults with
      seed := seed.or config.seed
      generator
      machineName := machineName definition
      maxSteps := (maxSteps.or config.maxSteps).getD defaults.maxSteps }
    let engine : MockEngine :=
      { config := mocks, exhaustion := config.exhaustion.getD .repeatLast }
    let (trace, _) := machine.execute input engine options
    return ⟨traceReport output trace, trace.success⟩
  | .test suite reporter coverage maxConcurrency bail seed => do
    let path ← ExceptT.lift (config.locateSuite files suite)
    let prepared ← ExceptT.adapt CommandError.suite
      (PreparedSuite.load path files (config.searchPaths path))
    let layered := config.runOptions prepared.suite.settings
    let options := { layered with
      coverage
      maxConcurrency := maxConcurrency.getD layered.maxConcurrency
      stopOnFailure := bail || layered.stopOnFailure
      seed := seed.or layered.seed
      generator }
    match ({ suite := prepared, options } : SuiteRun).run false 0 with
    | .ok result => return ⟨result.report reporter, result.allPassed⟩
    | .error e => throw (.suite e)

end Command

namespace Invocation

variable {m : Type → Type} [Monad m]

/-- One invocation with the files and the generator of the outside. -/
def execute (files : Files m) (i : Invocation) (generator : Generator := default) :
    m CommandOutput := do
  let attempt : Command.Attempt m CommandReport := do
    let config ← Command.loadConfig files i.config
    i.command.execute files generator i.quiet config
  match ← attempt.run with
  | .ok report => return { code := if report.success then 0 else 1, output := report.output }
  | .error e =>
    return { code := 2, error := if i.quiet then none else some s!"error: {e.message}" }

end Invocation
end StateCheck
