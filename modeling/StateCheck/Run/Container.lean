import StateCheck.Run.Simple
/-!
The attempts of Map and Parallel states.

Both run their inner scopes one after the other and stop at the first that fails; the paths of the
scopes that ran are recorded either way. A Map state first finds its items, puts them in batches
when it has a batcher, and may answer with a summary in place of the outputs.
-/
namespace StateCheck
set_option autoImplicit false

namespace Run

/-! ## Inner scopes in order -/

/-- One inner scope: it may fail before it runs, and then it has no path. -/
structure SubRun where
  output : Except Fault Json
  path : Option (List String)
  log : Log
  session : Session

/-- The inner scopes that ran: all their outputs, or the fault of the first that failed. -/
structure SubRuns where
  outputs : Except Fault (List Json)
  paths : List (List String)
  log : Log
  session : Session

def SubRun.ofScope (r : ScopeRun) : SubRun :=
  ⟨r.output.mapError (·.fault), some r.path, r.log, r.session⟩

/-- Runs inner scopes up to the first that fails. -/
def inOrder : List (Session → SubRun) → Session → SubRuns
  | [], s => ⟨.ok [], [], [], s⟩
  | job :: rest, s =>
    let a := job s
    match a.output with
    | .error fault => ⟨.error fault, a.path.toList, a.log, a.session⟩
    | .ok v =>
      let b := inOrder rest a.session
      ⟨b.outputs.map (v :: ·), a.path.toList ++ b.paths, a.log ++ b.log, b.session⟩

/-- Inner scopes as a process: `recorded` logs their paths, and whether none of them failed. -/
def collect (jobs : List (Session → SubRun)) (recorded : List (List String) → Bool → Event) :
    Process (List Json) := fun s =>
  let r := inOrder jobs s
  ⟨r.outputs, r.log ++ [recorded r.paths r.outputs.isOk], r.session⟩

/-! ## Map -/

/-- The items that a reader gives: the answer of the mock under the state's own name. -/
def readItems (name : String) (effective : Json) : Process (List Json) := do
  let response ← .call name effective
  match response.outcome with
  | .value (.arr items) => pure items
  | .value v => .fail (.task ErrorName.itemReaderFailed
      s!"item reader for '{name}' must return an array, got {v.kindName}")
  | .failure f => .fail (.ofTask f)

def mapItems (name : String) (spec : MapSpec) (effective ctx : Json) : Process (List Json) :=
  match spec.itemReader with
  | some _ => readItems name effective
  | none => do
    let itemsPath := spec.itemsPath.getD "$"
    match ← .eval (Path.resolve itemsPath ⟨effective, ctx⟩) with
    | .arr items => pure items
    | v => .fail (.fatal ErrorName.runtime
        s!"ItemsPath '{itemsPath}' must resolve to an array, got {v.kindName}")

/-- A batch of items with the input that all batches share. -/
def batch (shared : Option Json) (items : List Json) : Json :=
  .object (("Items", .arr items) :: (shared.map fun v => ("BatchInput", v)).toList)

/-- The size of batches: the given one, else all items in one. -/
def batchSize (batcher : ItemBatcher) (items : List Json) : Nat :=
  match batcher.maxItemsPerBatch with
  | some n => if n = 0 then max items.length 1 else n
  | none => max items.length 1

/-- The inputs of the iterations: the items, or batches of them. -/
def iterationInputs (batcher : Option ItemBatcher) (items : List Json) (effective ctx : Json) :
    Process (List Json) :=
  match batcher with
  | none => pure items
  | some b => do
    let shared ← match b.batchInput with
      | none => pure none
      | some t => do
        let v ← .draw (Template.render ⟨effective, ctx⟩ t)
        pure (some v)
    return (chunks (batchSize b items) items).map (batch shared)

/-- One iteration: the item goes through the item selector, which sees it in the context. -/
def iteration (name : String) (spec : MapSpec) (runItem : ScopeRunner) (context : Context)
    (label : String) (effective : Json) (retryCount index : Nat) (item : Json) (s : Session) :
    SubRun :=
  let context := context.withMapItem index item
  let label := childLabel label name index
  match spec.itemSelector with
  | none => .ofScope (runItem context label item s)
  | some t =>
    let a := Process.draw (Template.render ⟨effective, context.document name retryCount⟩ t) s
    match a.result with
    | .error fault => ⟨.error fault, none, a.log, a.session⟩
    | .ok input => .ofScope (runItem context label input a.session)

def withoutEndSlashes (text : String) : String :=
  String.ofList (Text.dropEndWhile (· == '/') text.toList)

/-- The summary that stands for the outputs when a result writer takes them. -/
def writerSummary (name : String) (writer effective ctx : Json) (context : Context) :
    Process Json := do
  let template := (writer.get? "Parameters").or (writer.get? "Arguments")
  let parameters ← match template with
    | none => pure Json.empty
    | some t => .draw (Template.render ⟨effective, ctx⟩ t)
  let bucket := (parameters.getString? "Bucket").getD ""
  let folder := withoutEndSlashes ((parameters.getString? "Prefix").getD "")
  let key :=
    if folder.isEmpty then s!"{context.executionName}/manifest.json"
    else s!"{folder}/{context.executionName}/manifest.json"
  return .object [
    ("MapRunArn", .str (context.mapRunArn name)),
    ("ResultWriterDetails", .object [("Bucket", .str bucket), ("Key", .str key)])]

/-- One attempt of a Map state, its item processor run by `runItem`. -/
def mapAttempt (name : String) (spec : MapSpec) (runItem : ScopeRunner) (context : Context)
    (label : String) (raw : Json) (retryCount : Nat) : Process Json := do
  let ctx := context.document name retryCount
  let effective ← .eval (spec.io.inputPath.select ⟨raw, ctx⟩)
  let items ← mapItems name spec effective ctx
  let inputs ← iterationInputs spec.itemBatcher items effective ctx
  let jobs := inputs.mapIdx fun index item =>
    iteration name spec runItem context label effective retryCount index item
  let outputs ← collect jobs fun paths completed => .map ⟨name, paths⟩ completed
  let result ← match spec.resultWriter with
    | none => pure (Json.arr outputs)
    | some writer => writerSummary name writer effective ctx context
  finish raw result spec.resultSelector spec.resultPath spec.io.outputPath ctx

/-! ## Parallel -/

/-- One attempt of a Parallel state, its branches run by `runBranches`. -/
def parallelAttempt (name : String) (spec : ParallelSpec) (runBranches : List ScopeRunner)
    (context : Context) (label : String) (raw : Json) (retryCount : Nat) : Process Json := do
  let ctx := context.document name retryCount
  let effective ← .eval (spec.io.inputPath.select ⟨raw, ctx⟩)
  let input ← parametersOr spec.parameters effective ctx
  let jobs := runBranches.mapIdx fun index runBranch =>
    fun s => SubRun.ofScope (runBranch context (childLabel label name index) input s)
  let outputs ← collect jobs fun paths completed => .parallel ⟨name, paths⟩ completed
  finish raw (.arr outputs) spec.resultSelector spec.resultPath spec.io.outputPath ctx

end Run
end StateCheck
