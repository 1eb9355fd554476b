import StateCheck.EvalError
import StateCheck.Mock.Engine
import StateCheck.Run.Trace
/-!
Faults, and what an execution records.

A log holds what happened in the order in which it happened: visits, retries, the inner scopes of
Map and Parallel states, and the faults that came up. The lists of a trace are parts of it.
-/
namespace StateCheck
set_option autoImplicit false

/-- A failure while a state runs. Only catchable faults are retried and caught. -/
structure Fault where
  error : String
  cause : Option String
  catchable : Bool
deriving DecidableEq

namespace Fault

def ofTask (f : TaskFailure) : Fault := ⟨f.error, f.cause, true⟩

def task (error cause : String) : Fault := ⟨error, some cause, true⟩

/-- A fault that nothing may intercept. -/
def fatal (error cause : String) : Fault := ⟨error, some cause, false⟩

def ofEval (e : EvalError) : Fault := fatal e.name e.message

def tooManySteps (maxSteps : Nat) : Fault :=
  fatal ErrorName.executionLimitExceeded s!"exceeded maximum step count ({maxSteps})"

def tooManyRetries (state : String) (maxSteps : Nat) : Fault :=
  fatal ErrorName.executionLimitExceeded
    s!"retries of '{state}' exceeded maximum step count ({maxSteps})"

def missingState (name : String) : Fault :=
  fatal ErrorName.runtime s!"state '{name}' does not exist in this scope"

end Fault

inductive Event where
  /-- A state is entered; the record gets its output when the state is left. -/
  | visit (record : StateExecution)
  | retry (record : RetryRecord)
  /-- The iterations of a Map state are over, `completed` when none of them failed. -/
  | map (record : MapExecution) (completed : Bool)
  /-- The branches of a Parallel state are over, `completed` when none of them failed. -/
  | parallel (record : ParallelExecution) (completed : Bool)
  | fault (fault : Fault)
  /-- A scope is sent to a name that none of its states has. -/
  | lost (target : String)

namespace Event

def visit? : Event → Option StateExecution
  | visit v => some v
  | _ => none

def retry? : Event → Option RetryRecord
  | retry r => some r
  | _ => none

def map? : Event → Option MapExecution
  | map e _ => some e
  | _ => none

def parallel? : Event → Option ParallelExecution
  | parallel e _ => some e
  | _ => none

end Event

/-- What an execution has recorded, in the order in which it happened. -/
abbrev Log := List Event

namespace Log

def visits (log : Log) : List StateExecution := log.filterMap Event.visit?

def retries (log : Log) : List RetryRecord := log.filterMap Event.retry?

def maps (log : Log) : List MapExecution := log.filterMap Event.map?

def parallels (log : Log) : List ParallelExecution := log.filterMap Event.parallel?

@[simp] theorem visits_append (a b : Log) : visits (a ++ b) = a.visits ++ b.visits :=
  List.filterMap_append

@[simp] theorem retries_append (a b : Log) : retries (a ++ b) = a.retries ++ b.retries :=
  List.filterMap_append

theorem mem_maps_iff {log : Log} {e : MapExecution} :
    e ∈ log.maps ↔ ∃ completed, Event.map e completed ∈ log := by
  rw [maps, List.mem_filterMap]
  constructor
  · rintro ⟨event, hevent, he⟩
    cases event <;> cases he
    exact ⟨_, hevent⟩
  · rintro ⟨completed, hevent⟩
    exact ⟨_, hevent, rfl⟩

theorem mem_parallels_iff {log : Log} {e : ParallelExecution} :
    e ∈ log.parallels ↔ ∃ completed, Event.parallel e completed ∈ log := by
  rw [parallels, List.mem_filterMap]
  constructor
  · rintro ⟨event, hevent, he⟩
    cases event <;> cases he
    exact ⟨_, hevent⟩
  · rintro ⟨completed, hevent⟩
    exact ⟨_, hevent, rfl⟩

end Log
end StateCheck
