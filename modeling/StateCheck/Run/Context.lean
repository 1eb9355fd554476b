import StateCheck.Entropy
import StateCheck.Json.Basic
import StateCheck.Timestamp
/-!
The settings of an execution, and the context document that paths starting with `$$` read.
-/
namespace StateCheck
set_option autoImplicit false

structure ExecutionOptions where
  /-- The most states that one scope may visit; every iteration and branch is a scope of its own. -/
  maxSteps : Nat := 1000
  seed : Option Nat := none
  generator : Generator := default
  startTime : Timestamp := default
  /-- The name of the execution; without one it is drawn. -/
  executionName : Option String := none
  machineName : String := "StateMachine"

def ExecutionOptions.entropy (o : ExecutionOptions) : Entropy := .start o.seed o.generator

structure Context where
  executionName : String
  startTime : String
  input : Json
  machineName : String
  /-- The index and the value of the item inside an iteration. -/
  mapItem : Option (Nat × Json) := none

namespace Context

def account : String := "arn:aws:states:us-east-1:123456789012"

/-- The context of a new execution; a missing name is drawn. -/
def start (options : ExecutionOptions) (input : Json) (entropy : Entropy) : Context × Entropy :=
  let (name, entropy) :=
    match options.executionName with
    | some name => (name, entropy)
    | none => entropy.uuid
  ({ executionName := name, startTime := options.startTime.text, input,
     machineName := options.machineName }, entropy)

def withMapItem (c : Context) (index : Nat) (value : Json) : Context :=
  { c with mapItem := some (index, value) }

/-- The name of a distributed run of a Map state. -/
def mapRunArn (c : Context) (mapState : String) : String :=
  s!"{account}:mapRun:{c.machineName}/{mapState}:{c.executionName}"

def executionDocument (c : Context) : Json :=
  .object [
    ("Id", .str s!"{account}:execution:{c.machineName}:{c.executionName}"),
    ("Name", .str c.executionName),
    ("StartTime", .str c.startTime),
    ("Input", c.input),
    ("RoleArn", .str "arn:aws:iam::123456789012:role/StepFunctionsRole"),
    ("RedriveCount", Json.ofNat 0)]

def document (c : Context) (state : String) (retryCount : Nat) : Json :=
  let item := match c.mapItem with
    | none => []
    | some (index, value) =>
      [("Map", Json.object [("Item", .object [("Index", Json.ofNat index), ("Value", value)])])]
  .object ([
    ("Execution", c.executionDocument),
    ("StateMachine", .object [
      ("Id", .str s!"{account}:stateMachine:{c.machineName}"), ("Name", .str c.machineName)]),
    ("State", .object [
      ("Name", .str state), ("EnteredTime", .str c.startTime),
      ("RetryCount", Json.ofNat retryCount)])] ++ item)

end Context
end StateCheck
