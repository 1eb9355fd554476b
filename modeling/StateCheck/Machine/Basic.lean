import StateCheck.Condition.Basic
import StateCheck.Path.Write
/-!
State machines.

A machine is one scope: its states and the one it starts at. Map and Parallel states own further
machines, the item processor and the branches. `State.successors` lists the states that a state
may move to, and `Machine.containers` the Map and Parallel states at every depth.
-/
namespace StateCheck
set_option autoImplicit false

/-! ## Parts of states -/

inductive Transition where
  | next (target : String)
  | finish
deriving DecidableEq, Repr

structure InputOutput where
  inputPath : PathField := .whole
  outputPath : PathField := .whole
deriving DecidableEq

inductive Jitter where
  | none
  | full
deriving DecidableEq, Repr

structure Retrier where
  errorEquals : List String
  intervalSeconds : Binary64 := Binary64.ofNat 1
  maxAttempts : Fin UInt32.size := 3
  backoffRate : Binary64 := Binary64.ofNat 2
  maxDelaySeconds : Option Binary64 := .none
  jitter : Jitter := .none
deriving DecidableEq

structure Catcher where
  errorEquals : List String
  next : String
  resultPath : PathField
deriving DecidableEq

/-- Whether a list of error names covers an error: by the name itself, by `States.ALL`, or by
`States.TaskFailed` unless the error is a timeout. -/
def errorMatches (errorEquals : List String) (error : String) : Bool :=
  errorEquals.any fun candidate =>
    candidate == error || candidate == ErrorName.all ||
      (candidate == ErrorName.taskFailed && error != ErrorName.timeout)

structure PassSpec where
  io : InputOutput
  resultPath : PathField
  parameters : Option Json
  result : Option Json
  transition : Transition

structure TaskSpec where
  io : InputOutput
  resultPath : PathField
  resource : String
  parameters : Option Json
  resultSelector : Option Json
  timeoutSeconds : Option Nat
  timeoutSecondsPath : Option String
  heartbeatSeconds : Option Nat
  retry : List Retrier
  catchers : List Catcher
  transition : Transition

structure ChoiceRule where
  condition : Condition
  next : String

structure ChoiceSpec where
  io : InputOutput
  choices : List ChoiceRule
  default : Option String

inductive WaitDuration where
  | seconds (n : Nat)
  | secondsPath (path : String)
  | timestamp (text : String)
  | timestampPath (path : String)
deriving DecidableEq, Repr

structure WaitSpec where
  io : InputOutput
  duration : WaitDuration
  transition : Transition

structure SucceedSpec where
  io : InputOutput

structure FailSpec where
  error : Option String
  cause : Option String
  errorPath : Option String
  causePath : Option String

inductive ProcessorMode where
  | inline
  | distributed
deriving DecidableEq, Repr

structure ItemBatcher where
  maxItemsPerBatch : Option Nat
  batchInput : Option Json

structure MapSpec where
  io : InputOutput
  resultPath : PathField
  resultSelector : Option Json
  itemsPath : Option String
  itemSelector : Option Json
  mode : ProcessorMode
  maxConcurrency : Option Nat
  itemReader : Option Json
  itemBatcher : Option ItemBatcher
  resultWriter : Option Json
  retry : List Retrier
  catchers : List Catcher
  transition : Transition

structure ParallelSpec where
  io : InputOutput
  resultPath : PathField
  parameters : Option Json
  resultSelector : Option Json
  retry : List Retrier
  catchers : List Catcher
  transition : Transition

/-! ## States and machines -/

mutual
/-- One scope: the top level, an item processor or a branch. -/
structure Machine where
  comment : Option String
  startAt : String
  timeoutSeconds : Option Nat
  states : List State

structure State where
  name : String
  comment : Option String
  kind : StateKind

inductive StateKind where
  | pass (spec : PassSpec)
  | task (spec : TaskSpec)
  | choice (spec : ChoiceSpec)
  | wait (spec : WaitSpec)
  | succeed (spec : SucceedSpec)
  | fail (spec : FailSpec)
  | map (spec : MapSpec) (processor : Machine)
  | parallel (spec : ParallelSpec) (branches : List Machine)
end

namespace StateKind

def typeName : StateKind → String
  | pass _ => "Pass"
  | task _ => "Task"
  | choice _ => "Choice"
  | wait _ => "Wait"
  | succeed _ => "Succeed"
  | fail _ => "Fail"
  | map _ _ => "Map"
  | parallel _ _ => "Parallel"

def transition? : StateKind → Option Transition
  | pass s => some s.transition
  | task s => some s.transition
  | wait s => some s.transition
  | map s _ => some s.transition
  | parallel s _ => some s.transition
  | choice _ | succeed _ | fail _ => none

def retriers : StateKind → List Retrier
  | task s => s.retry
  | map s _ => s.retry
  | parallel s _ => s.retry
  | _ => []

def catchers : StateKind → List Catcher
  | task s => s.catchers
  | map s _ => s.catchers
  | parallel s _ => s.catchers
  | _ => []

/-- The targets that a Choice state decides between, its default last. -/
def choiceTargets : StateKind → List String
  | choice s => s.choices.map (·.next) ++ s.default.toList
  | _ => []

def scopes : StateKind → List Machine
  | map _ processor => [processor]
  | parallel _ branches => branches
  | _ => []

end StateKind

namespace State

def nextTarget (s : State) : List String :=
  match s.kind.transition? with
  | some (.next target) => [target]
  | _ => []

/-- The states that a state may move to: its next, its choices, its catchers. -/
def successors (s : State) : List String :=
  s.nextTarget ++ s.kind.choiceTargets ++ s.kind.catchers.map (·.next)

end State

namespace Machine

def state? (m : Machine) (name : String) : Option State := m.states.find? (·.name == name)

def contains (m : Machine) (name : String) : Bool := m.states.any (·.name == name)

def stateNames (m : Machine) : List String := m.states.map (·.name)

end Machine

/-! ## Containers -/

inductive ContainerKind where
  | map
  | parallel
deriving DecidableEq, Repr

namespace ContainerKind

def word : ContainerKind → String
  | map => "map"
  | parallel => "parallel"

end ContainerKind

structure Container where
  name : String
  kind : ContainerKind
  scopes : List Machine

namespace State

def container? (s : State) : Option Container :=
  match s.kind with
  | .map _ processor => some ⟨s.name, .map, [processor]⟩
  | .parallel _ branches => some ⟨s.name, .parallel, branches⟩
  | _ => none

end State

mutual
/-- The containers of a machine at every depth, each before those inside it. -/
def Machine.containers : Machine → List Container
  | ⟨_, _, _, states⟩ => containersOfStates states

def containersOfStates : List State → List Container
  | [] => []
  | ⟨name, comment, kind⟩ :: rest =>
    (State.container? ⟨name, comment, kind⟩).toList ++ kind.innerContainers ++
      containersOfStates rest

def StateKind.innerContainers : StateKind → List Container
  | .map _ processor => processor.containers
  | .parallel _ branches => containersOfMachines branches
  | .pass _ | .task _ | .choice _ | .wait _ | .succeed _ | .fail _ => []

def containersOfMachines : List Machine → List Container
  | [] => []
  | m :: rest => m.containers ++ containersOfMachines rest
end

end StateCheck
