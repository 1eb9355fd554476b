import StateCheck.Location
import StateCheck.Machine.Loader
import StateCheck.Suite.Basic
import StateCheck.Text.Blank
import StateCheck.Yaml.Reader
/-!
Loading a suite with the documents that it refers to.

Preparation checks the names of the cases, then the machine, then the mocks; the first flaw counts.
-/
namespace StateCheck
set_option autoImplicit false

inductive CaseFlaw where
  | blankName
  | duplicateName
deriving DecidableEq, Repr

namespace CaseFlaw

def message : CaseFlaw → String
  | blankName => "name must not be empty"
  | duplicateName => "duplicate test case name"

end CaseFlaw

inductive SuiteError where
  | unreadable (path : String) (fault : FileFault)
  | malformed (origin : String)
  | definition (error : DefinitionError)
  | invalidCase (name : String) (flaw : CaseFlaw)
  | noResult (index : Nat)
deriving DecidableEq, Repr

namespace SuiteError

def message : SuiteError → String
  | unreadable path fault => s!"failed to read {path}: {fault.message}"
  | malformed origin => s!"invalid test suite {origin}"
  | definition error => error.message
  | invalidCase name flaw => s!"test case '{name}': {flaw.message}"
  | noResult index => s!"test worker failed: no result for case {index}"

end SuiteError

namespace TestSuite

def parse (text origin : String) : Except SuiteError TestSuite :=
  match (Yaml.read? text).bind fit with
  | some suite => .ok suite
  | none => .error (.malformed origin)

/-- The first case whose name is blank or was there before. -/
def checkNames (seen : List String) : List TestCase → Except SuiteError Unit
  | [] => .ok ()
  | c :: rest =>
    if (Text.trim c.name.toList).isEmpty then .error (.invalidCase c.name .blankName)
    else if seen.contains c.name then .error (.invalidCase c.name .duplicateName)
    else checkNames (c.name :: seen) rest

end TestSuite

namespace MockConfig

def parse (text : String) : Except DefinitionError MockConfig :=
  match Yaml.read? text with
  | some n => ofNode n
  | none => .error (.document .mockConfig)

end MockConfig

/-- Where relative references are looked up; the directory of the suite comes first. -/
structure SearchPaths where
  suiteDir : Option String := none
  stateMachines : Option String := none
  mocks : Option String := none
deriving DecidableEq, Repr

namespace SearchPaths

def ofSuiteFile (path : String) : SearchPaths := { suiteDir := Location.parent? path }

variable {m : Type → Type} [Monad m]

def firstPresent (files : Files m) : List String → m (Option String)
  | [] => pure none
  | path :: rest => do
    if ← files.isPresent path then return some path
    firstPresent files rest

/-- The path that a reference leads to: where it is found, else where it is looked up first. -/
def locate (s : SearchPaths) (files : Files m) (reference : String) (fallback : Option String) :
    m String := do
  if Location.isAbsolute reference then return reference
  let candidates := (s.suiteDir.toList ++ fallback.toList).map (Location.join · reference)
  return (← firstPresent files candidates).getD (candidates.headD reference)

end SearchPaths

structure PreparedSuite where
  suite : TestSuite
  definition : Machine
  baseMock : MockConfig

namespace PreparedSuite

variable {m : Type → Type} [Monad m]

def readText (files : Files m) (path : String) : ExceptT SuiteError m String := do
  match ← files.read path with
  | .ok text => return text
  | .error fault => throw (.unreadable path fault)

def ofDefinition {α : Type} (x : Except DefinitionError α) : ExceptT SuiteError m α :=
  match x with
  | .ok a => pure a
  | .error e => throw (.definition e)

def loadMachine (files : Files m) (paths : SearchPaths) (ref : DocumentRef) :
    ExceptT SuiteError m Machine :=
  match ref with
  | .inline value => ofDefinition (Machine.ofJson value)
  | .path reference => do
    let path ← ExceptT.lift (paths.locate files reference paths.stateMachines)
    let text ← readText files path
    ofDefinition (Machine.ofText text)

def loadMocks (files : Files m) (paths : SearchPaths) (ref : Option DocumentRef) :
    ExceptT SuiteError m MockConfig :=
  match ref with
  | none => pure {}
  | some (.inline value) => ofDefinition (MockConfig.ofJson value)
  | some (.path reference) => do
    let path ← ExceptT.lift (paths.locate files reference paths.mocks)
    let text ← readText files path
    ofDefinition (MockConfig.parse text)

def prepare (suite : TestSuite) (files : Files m) (paths : SearchPaths) :
    ExceptT SuiteError m PreparedSuite := do
  match TestSuite.checkNames [] suite.testCases with
  | .error e => throw e
  | .ok () =>
    let definition ← loadMachine files paths suite.stateMachine
    let baseMock ← loadMocks files paths suite.baseMock
    return { suite, definition, baseMock }

def load (path : String) (files : Files m) (paths : SearchPaths) :
    ExceptT SuiteError m PreparedSuite := do
  let text ← readText files path
  match TestSuite.parse text path with
  | .error e => throw e
  | .ok suite =>
    prepare suite files { paths with suiteDir := paths.suiteDir.or (Location.parent? path) }

end PreparedSuite
end StateCheck
