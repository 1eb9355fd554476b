import StateCheck.Document.Record
/-!
The trace of an execution: what every state got and gave, in which order, and how it ended.
-/
namespace StateCheck
set_option autoImplicit false

/-- One execution of a Map state, with the path of each iteration in the order of the items. -/
structure MapExecution where
  state : String
  iterationPaths : List (List String)
deriving DecidableEq

structure ParallelExecution where
  state : String
  branchPaths : List (List String)
deriving DecidableEq

/-- One visit of a state. The scope is empty at the top level and otherwise names the iterations
and branches around the state, as in `Orders[2]/Both[0]`. -/
structure StateExecution where
  state : String
  scope : String
  input : Json
  output : Option Json

/-- One retry, with the delay that it would have waited. -/
structure RetryRecord where
  state : String
  scope : String
  error : String
  /-- The number of the retry, from one, among those of its retrier. -/
  attempt : Nat
  delaySeconds : Binary64

/-- The error that ended an execution, and the top-level state where it did. -/
structure TraceError where
  error : String
  cause : Option String
  state : Option String
deriving DecidableEq

structure ExecutionTrace where
  /-- The output; null when the execution failed. -/
  output : Json
  /-- The states visited at the top level, in order. -/
  executionPath : List String
  mapExecutions : List MapExecution
  parallelExecutions : List ParallelExecution
  /-- One record per visit at any depth, the outer before the inner. -/
  stateExecutions : List StateExecution
  retries : List RetryRecord
  success : Bool
  error : Option TraceError

namespace ExecutionTrace

def errorName? (t : ExecutionTrace) : Option String := t.error.map (·.error)

def mapExecutionsOf (t : ExecutionTrace) (state : String) : List MapExecution :=
  t.mapExecutions.filter (·.state == state)

def parallelExecutionsOf (t : ExecutionTrace) (state : String) : List ParallelExecution :=
  t.parallelExecutions.filter (·.state == state)

/-- The first visit of a state at any depth. -/
def firstVisit? (t : ExecutionTrace) (state : String) : Option StateExecution :=
  t.stateExecutions.find? (·.state == state)

end ExecutionTrace

/-! ## As a document

Entries stand in the order in which reports print them; absent options are left out. -/

namespace Json

def optionalEntry (key : String) (value : Option Json) : List (String × Json) :=
  (value.map fun v => (key, v)).toList

def ofPaths (paths : List (List String)) : Json := .arr (paths.map ofStrings)

end Json

def MapExecution.toJson (m : MapExecution) : Json :=
  .obj [("state", .str m.state), ("iterationPaths", Json.ofPaths m.iterationPaths)]

def ParallelExecution.toJson (p : ParallelExecution) : Json :=
  .obj [("state", .str p.state), ("branchPaths", Json.ofPaths p.branchPaths)]

def StateExecution.toJson (s : StateExecution) : Json :=
  .obj ([("state", .str s.state), ("scope", .str s.scope), ("input", s.input)] ++
    Json.optionalEntry "output" s.output)

def RetryRecord.toJson (r : RetryRecord) : Json :=
  .obj [("state", .str r.state), ("scope", .str r.scope), ("error", .str r.error),
    ("attempt", Json.ofNat r.attempt), ("delaySeconds", Json.ofBinary64 r.delaySeconds)]

def TraceError.toJson (e : TraceError) : Json :=
  .obj (("error", .str e.error) :: Json.optionalEntry "cause" (e.cause.map .str) ++
    Json.optionalEntry "state" (e.state.map .str))

def ExecutionTrace.toJson (t : ExecutionTrace) : Json :=
  .obj ([
    ("output", t.output),
    ("executionPath", Json.ofStrings t.executionPath),
    ("mapExecutions", .arr (t.mapExecutions.map (·.toJson))),
    ("parallelExecutions", .arr (t.parallelExecutions.map (·.toJson))),
    ("stateExecutions", .arr (t.stateExecutions.map (·.toJson))),
    ("retries", .arr (t.retries.map (·.toJson))),
    ("success", .bool t.success)] ++ Json.optionalEntry "error" (t.error.map (·.toJson)))

/-! ## From a document -/

def Fit.paths : Fit (List (List String)) := Fit.list (Fit.list Fit.text)

def MapExecution.fit : Fit MapExecution := fun n => do
  let r ← n.record? ["state", "iterationPaths"]
  return ⟨← r.required "state" Fit.text, ← r.required "iterationPaths" Fit.paths⟩

def ParallelExecution.fit : Fit ParallelExecution := fun n => do
  let r ← n.record? ["state", "branchPaths"]
  return ⟨← r.required "state" Fit.text, ← r.required "branchPaths" Fit.paths⟩

def StateExecution.fit : Fit StateExecution := fun n => do
  let r ← n.record? ["state", "scope", "input", "output"]
  let state ← r.required "state" Fit.text
  let scope ← r.required "scope" Fit.text
  let input ← r.required "input" Fit.value
  let output ← r.optional "output" Fit.value
  return { state, scope, input, output }

def RetryRecord.fit : Fit RetryRecord := fun n => do
  let r ← n.record? ["state", "scope", "error", "attempt", "delaySeconds"]
  let state ← r.required "state" Fit.text
  let scope ← r.required "scope" Fit.text
  let error ← r.required "error" Fit.text
  let attempt ← r.required "attempt" Fit.small
  let delaySeconds ← r.required "delaySeconds" Fit.number
  return { state, scope, error, attempt, delaySeconds }

def TraceError.fit : Fit TraceError := fun n => do
  let r ← n.record? ["error", "cause", "state"]
  let error ← r.required "error" Fit.text
  let cause ← r.optional "cause" Fit.text
  let state ← r.optional "state" Fit.text
  return { error, cause, state }

def ExecutionTrace.fit : Fit ExecutionTrace := fun n => do
  let r ← n.record? ["output", "executionPath", "mapExecutions", "parallelExecutions",
    "stateExecutions", "retries", "success", "error"]
  let output ← r.required "output" Fit.value
  let executionPath ← r.required "executionPath" (Fit.list Fit.text)
  let mapExecutions ← r.required "mapExecutions" (Fit.list MapExecution.fit)
  let parallelExecutions ← r.required "parallelExecutions" (Fit.list ParallelExecution.fit)
  let stateExecutions ← r.required "stateExecutions" (Fit.list StateExecution.fit)
  let retries ← r.required "retries" (Fit.list RetryRecord.fit)
  let success ← r.required "success" Fit.flag
  let error ← r.optional "error" TraceError.fit
  return { output, executionPath, mapExecutions, parallelExecutions, stateExecutions, retries,
           success, error }

end StateCheck
