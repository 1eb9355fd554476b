import StateCheck.Proofs.Coverage.Tracked
import StateCheck.Proofs.Run.Moves
import StateCheck.Proofs.Run.Walk
/-!
The records of containers in the traces of a machine.

Every record belongs to a container of the machine, and the path of each index in it walks through
the scope that the container has for the index (`Machine.exists_container_of_record`).
-/
namespace StateCheck
set_option autoImplicit false

/-- The scope that a container runs at an index: a Map state always its processor, a Parallel state
the branch of the index. -/
def Container.scopeAt? (c : Container) (index : Nat) : Option Machine :=
  match c.kind with
  | .map => c.scopes.head?
  | .parallel => c.scopes[index]?

theorem Container.mem_of_scopeAt? {c : Container} {index : Nat} {scope : Machine}
    (h : c.scopeAt? index = some scope) : scope ∈ c.scopes := by
  unfold scopeAt? at h
  split at h
  · exact List.mem_of_mem_head? h
  · exact List.mem_of_getElem? h

/-- The paths walk through the scopes that the container runs them in. -/
def Container.Runs (c : Container) (maxSteps : Nat) (paths : List (List String)) : Prop :=
  ∀ (i : Nat) path, paths[i]? = some path →
    ∃ scope, c.scopeAt? i = some scope ∧ scope.IsWalk maxSteps path

theorem SubWalks.runs {c : Container} {maxSteps : Nat} {completed : Bool}
    {paths : List (List String)} (h : SubWalks c.scopeAt? maxSteps completed paths) :
    c.Runs maxSteps paths := by
  intro i path hpath
  obtain ⟨scope, hscope, hwalk, -⟩ := h i path hpath
  exact ⟨scope, hscope, hwalk⟩

namespace Machine

variable {m : Machine} {x : Setup}

theorem exists_container_of_record (hm : m.Closed) {record : ContainerRecord}
    (h : record ∈ (m.traceOf x).records) :
    ∃ c ∈ m.containers, c.name = record.1 ∧ c.Runs x.options.maxSteps record.2 := by
  have hsound := Machine.run_sound hm (m.execution_ran x.input x.engine x.options)
  rw [ExecutionTrace.records, traceOf, execute, ScopeRun.trace_mapExecutions,
    ScopeRun.trace_parallelExecutions] at h
  rcases List.mem_append.mp h with h | h
  · obtain ⟨e, he, rfl⟩ := List.mem_map.mp h
    obtain ⟨completed, hevent⟩ := Log.mem_maps_iff.mp he
    obtain ⟨processor, hc, hwalks⟩ := hsound.events _ hevent
    exact ⟨_, hc, rfl, SubWalks.runs hwalks⟩
  · obtain ⟨e, he, rfl⟩ := List.mem_map.mp h
    obtain ⟨completed, hevent⟩ := Log.mem_parallels_iff.mp he
    obtain ⟨branches, hc, hwalks⟩ := hsound.events _ hevent
    exact ⟨_, hc, rfl, SubWalks.runs hwalks⟩

theorem traceOf_isWalk (hm : m.Closed) :
    m.IsWalk x.options.maxSteps (m.traceOf x).executionPath := by
  rw [traceOf, execute, ScopeRun.trace_executionPath]
  exact (Machine.run_sound hm (m.execution_ran x.input x.engine x.options)).walk

end Machine

theorem mem_flatten_recordsOf {name : String} {traces : List ExecutionTrace} {path : List String} :
    path ∈ (recordsOf name (traces.flatMap (·.records))).flatten ↔
      ∃ trace ∈ traces, ∃ record ∈ trace.records, record.1 = name ∧ path ∈ record.2 := by
  constructor
  · intro h
    obtain ⟨paths, hrecord, hpath⟩ := List.mem_flatten.mp h
    obtain ⟨trace, htrace, hrecord⟩ := List.mem_flatMap.mp (mem_recordsOf.mp hrecord)
    exact ⟨trace, htrace, (name, paths), hrecord, rfl, hpath⟩
  · rintro ⟨trace, htrace, ⟨_, paths⟩, hrecord, rfl, hpath⟩
    have hmem := mem_recordsOf.mpr (List.mem_flatMap.mpr ⟨trace, htrace, hrecord⟩)
    exact List.mem_flatten.mpr ⟨paths, hmem, hpath⟩

theorem length_recordsOf_trace (name : String) (t : ExecutionTrace) :
    (recordsOf name t.records).length =
      (t.mapExecutionsOf name).length + (t.parallelExecutionsOf name).length := by
  simp [recordsOf, ExecutionTrace.records, ExecutionTrace.mapExecutionsOf,
    ExecutionTrace.parallelExecutionsOf, List.filter_map, Function.comp_def]

theorem length_recordsOf (name : String) (traces : List ExecutionTrace) :
    (recordsOf name (traces.flatMap (·.records))).length =
      (traces.map fun t =>
        (t.mapExecutionsOf name).length + (t.parallelExecutionsOf name).length).sum := by
  induction traces with
  | nil => rfl
  | cons t rest ih =>
    rw [List.flatMap_cons, recordsOf_append, List.length_append, ih, length_recordsOf_trace,
      List.map_cons, List.sum_cons]

end StateCheck
