import StateCheck.Condition.Eval
import StateCheck.Run.Context
import StateCheck.Run.Process
import StateCheck.Template
/-!
The states without inner scopes: Pass, Choice, Wait, Succeed, Fail and the attempts of Task.

Data flows from the input path through the parameters to a result, and from the result through the
result selector and the result path to the output path.
-/
namespace StateCheck
set_option autoImplicit false

namespace Run

def parametersOr (template : Option Json) (effective ctx : Json) : Process Json :=
  match template with
  | none => pure effective
  | some t => .draw (Template.render ⟨effective, ctx⟩ t)

/-- From a result to the output: result selector, result path, output path. -/
def finish (raw result : Json) (selector : Option Json) (resultPath outputPath : PathField)
    (ctx : Json) : Process Json := do
  let selected ← parametersOr selector result ctx
  let merged ← .eval (resultPath.mergeResult raw selected)
  .eval (outputPath.select ⟨merged, ctx⟩)

def pass (name : String) (spec : PassSpec) (context : Context) (raw : Json) : Process Step := do
  let ctx := context.document name 0
  let effective ← .eval (spec.io.inputPath.select ⟨raw, ctx⟩)
  let effective ← parametersOr spec.parameters effective ctx
  let result := spec.result.getD effective
  let merged ← .eval (spec.resultPath.mergeResult raw result)
  let output ← .eval (spec.io.outputPath.select ⟨merged, ctx⟩)
  return .along spec.transition output

def firstMatch (docs : Documents) : List ChoiceRule → Except EvalError (Option String)
  | [] => .ok none
  | rule :: rest => do
    if ← rule.condition.eval docs then return some rule.next else firstMatch docs rest

def choice (name : String) (spec : ChoiceSpec) (context : Context) (raw : Json) : Process Step := do
  let ctx := context.document name 0
  let effective ← .eval (spec.io.inputPath.select ⟨raw, ctx⟩)
  let matched ← .eval (firstMatch ⟨effective, ctx⟩ spec.choices)
  match matched.or spec.default with
  | none =>
    .fail (.fatal ErrorName.noChoiceMatched s!"no Choice rule matched and '{name}' has no Default")
  | some next => do
    let output ← .eval (spec.io.outputPath.select ⟨effective, ctx⟩)
    return .next next output

/-- Checks how long a Wait state waits; no time passes. -/
def checkDuration (duration : WaitDuration) (docs : Documents) : Process Unit :=
  match duration with
  | .seconds _ => pure ()
  | .secondsPath p => do
    let v ← .eval (Path.resolve p docs)
    if v.asNatural?.isSome then pure ()
    else .fail (.fatal ErrorName.runtime
      s!"SecondsPath '{p}' must resolve to a non-negative integer, got {v.compact}")
  | .timestamp text =>
    if (Timestamp.parse? text).isSome then pure ()
    else .fail (.fatal ErrorName.runtime s!"Timestamp '{text}' is not an RFC 3339 timestamp")
  | .timestampPath p => do
    let v ← .eval (Path.resolve p docs)
    if (Condition.timestamp? v).isSome then pure ()
    else .fail (.fatal ErrorName.runtime
      s!"TimestampPath '{p}' must resolve to an RFC 3339 timestamp, got {v.compact}")

def wait (name : String) (spec : WaitSpec) (context : Context) (raw : Json) : Process Step := do
  let ctx := context.document name 0
  let effective ← .eval (spec.io.inputPath.select ⟨raw, ctx⟩)
  checkDuration spec.duration ⟨effective, ctx⟩
  let output ← .eval (spec.io.outputPath.select ⟨effective, ctx⟩)
  return .along spec.transition output

def succeed (name : String) (spec : SucceedSpec) (context : Context) (raw : Json) :
    Process Step := do
  let ctx := context.document name 0
  let effective ← .eval (spec.io.inputPath.select ⟨raw, ctx⟩)
  let output ← .eval (spec.io.outputPath.select ⟨effective, ctx⟩)
  return .finish output

/-- A text of a Fail state: given as it is, or found by a path. -/
def failText (literal dynamic : Option String) (docs : Documents) : Process (Option String) :=
  match literal, dynamic with
  | some text, _ => pure (some text)
  | none, some p => do
    match ← .eval (Path.resolve p docs) with
    | .str s => pure (some s)
    | v => .fail (.fatal ErrorName.runtime s!"'{p}' must resolve to a string, got {v.compact}")
  | none, none => pure none

def fail (name : String) (spec : FailSpec) (context : Context) (raw : Json) : Process Step := do
  let docs : Documents := ⟨raw, context.document name 0⟩
  let error ← failText spec.error spec.errorPath docs
  let cause ← failText spec.cause spec.causePath docs
  .fail ⟨error.getD ErrorName.fail, cause, true⟩

/-! ## Task -/

def timeoutOf (spec : TaskSpec) (docs : Documents) : Process (Option Nat) :=
  match spec.timeoutSeconds, spec.timeoutSecondsPath with
  | some n, _ => pure (some n)
  | none, some p => do
    let v ← .eval (Path.resolve p docs)
    match v.asNatural? with
    | some n => pure (some n)
    | none => .fail (.fatal ErrorName.runtime
        s!"TimeoutSecondsPath '{p}' must resolve to a positive integer, got {v.compact}")
  | none, none => pure none

/-- Whether a delay in milliseconds exceeds a limit in seconds; milliseconds are counted in 64
bits. -/
def exceeds (delay timeout : Nat) : Bool := min (timeout * 1000) (pow2 64 - 1) < delay

def taskResult (name : String) (response : MockResponse) (timeout : Option Nat) : Process Json :=
  let outcome : Process Json :=
    match response.outcome with
    | .value v => pure v
    | .failure f => .fail (.ofTask f)
  match response.delay, timeout with
  | some delay, some limit =>
    if exceeds delay limit then
      .fail (.task ErrorName.timeout
        s!"task '{name}' took {delay}ms, exceeding TimeoutSeconds {limit}")
    else outcome
  | _, _ => outcome

def taskAttempt (name : String) (spec : TaskSpec) (context : Context) (raw : Json)
    (retryCount : Nat) : Process Json := do
  let ctx := context.document name retryCount
  let effective ← .eval (spec.io.inputPath.select ⟨raw, ctx⟩)
  let request ← parametersOr spec.parameters effective ctx
  let timeout ← timeoutOf spec ⟨effective, ctx⟩
  let response ← .call name request
  let result ← taskResult name response timeout
  finish raw result spec.resultSelector spec.resultPath spec.io.outputPath ctx

end Run
end StateCheck
