import StateCheck.Machine.Loader
import StateCheck.Run.Container
import StateCheck.Run.Policy
/-!
Running machines.

A scope is walked from its start, one state after the other, until a state finishes it, a fault
ends it or its ceiling of steps is reached (`Run.walk`). States that own machines get the runs of
those machines, so that running follows the structure of the machine (`Machine.run`).
`Machine.execute` is the whole execution with its trace.
-/
namespace StateCheck
set_option autoImplicit false

namespace Run

/-- Walks a scope with `left` steps below the ceiling, from the state `current` after `last`. -/
def walk (states : List (String × StateRunner)) (maxSteps : Nat) (context : Context)
    (label : String) :
    (left : Nat) → (current : String) → (last : Option String) → Json → Session → ScopeRun
  | 0, current, last, _, s =>
    let fault := .tooManySteps maxSteps
    ⟨.error ⟨fault, last.getD current⟩, [], [.fault fault], s⟩
  | left + 1, current, _, document, s =>
    match states.lookup current with
    | none =>
      let fault := .missingState current
      ⟨.error ⟨fault, current⟩, [], [.lost current, .fault fault], s⟩
    | some runState =>
      let a := runState context label document s
      let visit (output : Option Json) : Log :=
        .visit { state := current, scope := label, input := document, output } :: a.log
      match a.result with
      | .error fault => ⟨.error ⟨fault, current⟩, [current], visit none, a.session⟩
      | .ok (.finish output) => ⟨.ok output, [current], visit (some output), a.session⟩
      | .ok (.next target output) =>
        let b := walk states maxSteps context label left target (some current) output a.session
        ⟨b.output, current :: b.path, visit (some output) ++ b.log, b.session⟩

def underPolicy (name : String) (retry : List Retrier) (catchers : List Catcher)
    (transition : Transition) (maxSteps : Nat) (label : String) (raw : Json)
    (attempt : Nat → Process Json) : Process Step :=
  Policy.apply { state := name, scope := label, raw, catchers, transition, maxSteps } retry attempt

end Run

mutual
def Machine.run (maxSteps : Nat) : Machine → ScopeRunner
  | ⟨_, startAt, _, states⟩ => fun context label input s =>
    Run.walk (runStates maxSteps states) maxSteps context label maxSteps startAt none input s

def runStates (maxSteps : Nat) : List State → List (String × StateRunner)
  | [] => []
  | ⟨name, _, kind⟩ :: rest => (name, kind.run maxSteps name) :: runStates maxSteps rest

def StateKind.run (maxSteps : Nat) (name : String) : StateKind → StateRunner
  | .pass spec => fun context _ raw => Run.pass name spec context raw
  | .choice spec => fun context _ raw => Run.choice name spec context raw
  | .wait spec => fun context _ raw => Run.wait name spec context raw
  | .succeed spec => fun context _ raw => Run.succeed name spec context raw
  | .fail spec => fun context _ raw => Run.fail name spec context raw
  | .task spec => fun context label raw =>
    Run.underPolicy name spec.retry spec.catchers spec.transition maxSteps label raw
      (Run.taskAttempt name spec context raw)
  | .map spec processor => fun context label raw =>
    Run.underPolicy name spec.retry spec.catchers spec.transition maxSteps label raw
      (Run.mapAttempt name spec (processor.run maxSteps) context label raw)
  | .parallel spec branches => fun context label raw =>
    Run.underPolicy name spec.retry spec.catchers spec.transition maxSteps label raw
      (Run.parallelAttempt name spec (runMachines maxSteps branches) context label raw)

def runMachines (maxSteps : Nat) : List Machine → List ScopeRunner
  | [] => []
  | m :: rest => m.run maxSteps :: runMachines maxSteps rest
end

def ScopeRun.trace (r : ScopeRun) : ExecutionTrace :=
  let ended (output : Json) (error : Option TraceError) : ExecutionTrace := {
    output, error
    executionPath := r.path
    mapExecutions := r.log.maps
    parallelExecutions := r.log.parallels
    stateExecutions := r.log.visits
    retries := r.log.retries
    success := error.isNone }
  match r.output with
  | .ok output => ended output none
  | .error ⟨fault, state⟩ => ended .null (some ⟨fault.error, fault.cause, some state⟩)

namespace ScopeRun
variable (r : ScopeRun)

@[simp] theorem trace_executionPath : r.trace.executionPath = r.path := by
  unfold trace
  split <;> rfl

@[simp] theorem trace_mapExecutions : r.trace.mapExecutions = r.log.maps := by
  unfold trace
  split <;> rfl

@[simp] theorem trace_parallelExecutions : r.trace.parallelExecutions = r.log.parallels := by
  unfold trace
  split <;> rfl

@[simp] theorem trace_stateExecutions : r.trace.stateExecutions = r.log.visits := by
  unfold trace
  split <;> rfl

@[simp] theorem trace_retries : r.trace.retries = r.log.retries := by
  unfold trace
  split <;> rfl

theorem trace_of_error {fault : Fault} {state : String} (h : r.output = .error ⟨fault, state⟩) :
    r.trace.success = false ∧ r.trace.output = .null ∧
      r.trace.error = some ⟨fault.error, fault.cause, some state⟩ := by
  unfold trace
  rw [h]
  exact ⟨rfl, rfl, rfl⟩

theorem trace_error_isSome_iff : r.trace.error.isSome = true ↔ r.trace.success = false := by
  unfold trace
  split <;> simp

theorem trace_success_iff : r.trace.success = true ↔ r.output = .ok r.trace.output := by
  unfold trace
  split <;> simp [*]

end ScopeRun

namespace Machine

/-- The run of the top-level scope in a new context. -/
def execution (m : Machine) (input : Json) (engine : MockEngine) (options : ExecutionOptions) :
    ScopeRun :=
  let (context, entropy) := Context.start options input options.entropy
  m.run options.maxSteps context "" input ⟨engine, entropy⟩

/-- One execution: its trace, and the mock engine after it. -/
def execute (m : Machine) (input : Json) (engine : MockEngine) (options : ExecutionOptions) :
    ExecutionTrace × MockEngine :=
  let r := m.execution input engine options
  (r.trace, r.session.engine)

/-- Loads a definition and executes it once with a fresh engine. -/
def runDocument (definition input : Json) (mocks : MockConfig) (exhaustion : Exhaustion)
    (options : ExecutionOptions) : Except DefinitionError ExecutionTrace := do
  let m ← Machine.ofJson definition
  return (m.execute input { config := mocks, exhaustion } options).1

end Machine
end StateCheck
