import StateCheck.Machine.Basic
import StateCheck.Machine.DefinitionError
/-!
Reading the parts of a state that hold no further machines.

Every reader looks its fields up in the body of the state and reports the first flaw it meets.
-/
namespace StateCheck
set_option autoImplicit false

abbrev Load := Except StateFlaw

namespace Load

/-- A path field: left out it is the whole document, null discards. -/
def pathField (body : Json) (field : String) : Load PathField :=
  match body.get? field with
  | none => .ok .whole
  | some .null => .ok .discard
  | some (.str p) => if p.startsWith "$" then .ok (.path p) else .error (.pathField field)
  | some _ => .error (.pathField field)

def inputOutput (body : Json) : Load InputOutput := do
  let inputPath ← pathField body "InputPath"
  let outputPath ← pathField body "OutputPath"
  return { inputPath, outputPath }

/-- Exactly one of `Next` and `End: true`. -/
def transition (body : Json) : Load Transition :=
  let finish := ((body.get? "End").bind Json.asBool?).getD false
  match body.getString? "Next", finish with
  | some target, false => .ok (.next target)
  | none, true => .ok .finish
  | some _, true => .error .nextAndEnd
  | none, false => .error .noTransition

/-! ## Retry and catch -/

/-- The error names of an entry: at least one, and `States.ALL` only by itself. -/
def errorEquals (entry : PolicyEntry) (v : Json) : Load (List String) :=
  match (v.get? "ErrorEquals").bind Json.asArray? with
  | none => .error (.entryWithoutErrors entry)
  | some items =>
    let names := items.filterMap Json.asString?
    if names.isEmpty then .error (.emptyErrors entry)
    else if 1 < names.length ∧ names.contains ErrorName.all then .error (.allNotAlone entry)
    else .ok names

def jitter (index : Nat) (v : Json) : Load Jitter :=
  match v.getString? "JitterStrategy" with
  | none => .ok .none
  | some s =>
    if s = "NONE" then .ok .none
    else if s = "FULL" then .ok .full
    else .error (.unknownJitter index s)

def number? (v : Json) (key : String) : Option Binary64 := (v.get? key).bind Json.asBinary64?

/-- One retrier. Attempts are counted in 32 bits, and a larger number is taken modulo `2 ^ 32`. -/
def retrier (index : Nat) (v : Json) : Load Retrier := do
  let jitter ← jitter index v
  let errorEquals ← errorEquals (.retry index) v
  let plain : Retrier := { errorEquals }
  return { plain with
    intervalSeconds := (number? v "IntervalSeconds").getD plain.intervalSeconds
    maxAttempts := ((v.getNatural? "MaxAttempts").map (Fin.ofNat _)).getD plain.maxAttempts
    backoffRate := (number? v "BackoffRate").getD plain.backoffRate
    maxDelaySeconds := number? v "MaxDelaySeconds"
    jitter }

def catcher (index : Nat) (v : Json) : Load Catcher :=
  match v.getString? "Next" with
  | none => .error (.entryWithoutNext (.catcher index))
  | some next => do
    let errorEquals ← errorEquals (.catcher index) v
    let resultPath ← pathField v "ResultPath"
    return { errorEquals, next, resultPath }

def indexed {ε α : Type} (f : Nat → Json → Except ε α) : Nat → List Json → Except ε (List α)
  | _, [] => .ok []
  | i, v :: rest => do
    let a ← f i v
    let more ← indexed f (i + 1) rest
    return a :: more

def retry (body : Json) : Load (List Retrier) :=
  match body.get? "Retry" with
  | none => .ok []
  | some v =>
    match v.asArray? with
    | none => .error .retryNotArray
    | some items => indexed retrier 0 items

def catchers (body : Json) : Load (List Catcher) :=
  match body.get? "Catch" with
  | none => .ok []
  | some v =>
    match v.asArray? with
    | none => .error .catchNotArray
    | some items => indexed catcher 0 items

/-! ## Conditions -/

/-- Whether a literal operand is of the kind that a comparison takes. -/
def literalFits (c : Comparison) (v : Json) : Bool :=
  if c.isNumericTest then v.isNumber
  else if c = .booleanEquals || c.isTypeTest then v.isBool
  else v.isString

/-- The operand under the key of a comparison. -/
def operand (key : String) (c : Comparison) (isPath : Bool) (v : Json) : Load Operand :=
  if isPath then
    match v with
    | .str p => .ok (.path p)
    | _ => .error (.operandNotPath key)
  else if literalFits c v then .ok (.literal v)
  else .error (.operandKind key)

/-- The one comparison among the entries of a rule, with `found` the one met before. -/
def comparison (subject : String) (found : Option (Comparison × Operand)) :
    Fields → Load (Option (Comparison × Operand))
  | [] => .ok found
  | (key, v) :: rest =>
    match Comparison.ofKey? key with
    | none => comparison subject found rest
    | some (c, isPath) =>
      if found.isSome then .error (.manyOperators subject)
      else do
        let o ← operand key c isPath v
        comparison subject (some (c, o)) rest

/-- A rule without `And`, `Or` and `Not`. -/
def test (rule : Json) : Load Condition :=
  match rule.getString? "Variable" with
  | none => .error .ruleWithoutVariable
  | some subject => do
    match ← comparison subject none (rule.asFields?.getD []) with
    | none => .error (.noOperator subject)
    | some (c, o) => return .test subject c o

mutual
/-- A condition: `And` comes before `Or`, `Or` before `Not`, and a test last. -/
def condition (rule : Json) : Load Condition :=
  match _h₁ : rule.get? "And" with
  | some items => do
    let items ← conditionList "And" items
    return .and items
  | none =>
    match _h₂ : rule.get? "Or" with
    | some items => do
      let items ← conditionList "Or" items
      return .or items
    | none =>
      match _h₃ : rule.get? "Not" with
      | some inner => do
        let inner ← condition inner
        return .not inner
      | none => test rule
termination_by (sizeOf rule, 0)
decreasing_by
  all_goals
    apply Prod.Lex.left
    exact Json.sizeOf_get?_lt (by assumption)

/-- The conditions under `And` or `Or`, at least one. -/
def conditionList (op : String) (items : Json) : Load (List Condition) :=
  match items with
  | .arr [] => .error (.emptyList op)
  | .arr (first :: rest) => conditionItems (first :: rest)
  | _ => .error (.listNotArray op)
termination_by (sizeOf items, 0)
decreasing_by
  apply Prod.Lex.left
  simp only [Json.arr.sizeOf_spec]
  omega

def conditionItems (items : List Json) : Load (List Condition) :=
  match items with
  | [] => .ok []
  | v :: rest => do
    let c ← condition v
    let more ← conditionItems rest
    return c :: more
termination_by (sizeOf items, 0)
decreasing_by
  all_goals
    apply Prod.Lex.left
    simp only [List.cons.sizeOf_spec]
    omega
end

def choiceRule (index : Nat) (rule : Json) : Load ChoiceRule :=
  match rule.getString? "Next" with
  | none => .error (.ruleWithoutNext index)
  | some next => do
    let condition ← condition rule
    return { condition, next }

/-! ## States without machines -/

def pass (body : Json) : Load PassSpec := do
  let io ← inputOutput body
  let resultPath ← pathField body "ResultPath"
  let transition ← transition body
  let parameters := body.get? "Parameters"
  return { io, resultPath, transition, parameters, result := body.get? "Result" }

def task (body : Json) : Load TaskSpec :=
  match body.getString? "Resource" with
  | none => .error .noResource
  | some resource => do
    let io ← inputOutput body
    let resultPath ← pathField body "ResultPath"
    let retry ← retry body
    let catchers ← catchers body
    let transition ← transition body
    return {
      io, resultPath, resource, retry, catchers, transition
      parameters := body.get? "Parameters"
      resultSelector := body.get? "ResultSelector"
      timeoutSeconds := body.getNatural? "TimeoutSeconds"
      timeoutSecondsPath := body.getString? "TimeoutSecondsPath"
      heartbeatSeconds := body.getNatural? "HeartbeatSeconds" }

def choice (body : Json) : Load ChoiceSpec :=
  match (body.get? "Choices").bind Json.asArray? with
  | none => .error .noChoices
  | some rules =>
    if rules.isEmpty then .error .emptyChoices
    else if (body.get? "Next").isSome || (body.get? "End").isSome then .error .choiceTransition
    else do
      let choices ← indexed choiceRule 0 rules
      let io ← inputOutput body
      return { io, choices, default := body.getString? "Default" }

/-- Exactly one of the four ways to say how long. -/
def waitDuration (body : Json) : Load WaitDuration := do
  let seconds ← match body.get? "Seconds" with
    | none => pure none
    | some v =>
      match v.asNatural? with
      | some n => pure (some (.seconds n))
      | none => .error .secondsKind
  let found := seconds.toList ++
    ((body.getString? "SecondsPath").map .secondsPath).toList ++
    ((body.getString? "Timestamp").map .timestamp).toList ++
    ((body.getString? "TimestampPath").map .timestampPath).toList
  match found with
  | [duration] => return duration
  | _ => .error .waitDurations

def wait (body : Json) : Load WaitSpec := do
  let io ← inputOutput body
  let duration ← waitDuration body
  let transition ← transition body
  return { io, duration, transition }

def succeed (body : Json) : Load SucceedSpec := do
  let io ← inputOutput body
  return { io }

def fail (body : Json) : FailSpec where
  error := body.getString? "Error"
  cause := body.getString? "Cause"
  errorPath := body.getString? "ErrorPath"
  causePath := body.getString? "CausePath"

/-! ## States with machines, apart from those -/

def processorMode (processor : Json) : Load ProcessorMode :=
  match ((processor.get? "ProcessorConfig").bind (·.get? "Mode")).bind Json.asString? with
  | none => .ok .inline
  | some mode =>
    if mode = "INLINE" then .ok .inline
    else if mode = "DISTRIBUTED" then .ok .distributed
    else .error (.unknownMode mode)

/-- The batches of a Map state; a batch of no items is refused. -/
def itemBatcher (body : Json) : Load (Option ItemBatcher) :=
  match body.get? "ItemBatcher" with
  | none => .ok none
  | some v =>
    let maxItemsPerBatch := v.getNatural? "MaxItemsPerBatch"
    if maxItemsPerBatch = some 0 then .error .emptyBatches
    else .ok (some { maxItemsPerBatch, batchInput := v.get? "BatchInput" })

def map (mode : ProcessorMode) (body : Json) : Load MapSpec := do
  let itemBatcher ← itemBatcher body
  let io ← inputOutput body
  let resultPath ← pathField body "ResultPath"
  let retry ← retry body
  let catchers ← catchers body
  let transition ← transition body
  return {
    io, resultPath, mode, itemBatcher, retry, catchers, transition
    resultSelector := body.get? "ResultSelector"
    itemsPath := body.getString? "ItemsPath"
    itemSelector := (body.get? "ItemSelector").or (body.get? "Parameters")
    maxConcurrency := body.getNatural? "MaxConcurrency"
    itemReader := body.get? "ItemReader"
    resultWriter := body.get? "ResultWriter" }

def parallel (body : Json) : Load ParallelSpec := do
  let io ← inputOutput body
  let resultPath ← pathField body "ResultPath"
  let retry ← retry body
  let catchers ← catchers body
  let transition ← transition body
  return {
    io, resultPath, retry, catchers, transition
    parameters := body.get? "Parameters"
    resultSelector := body.get? "ResultSelector" }

end Load
end StateCheck
