import Mathlib.Algebra.Order.Group.Multiset
import Mathlib.Data.List.Chain
import StateCheck.Proofs.Run.Course
/-!
Traces lose no visit and invent none.

Every state that a run enters stands on exactly one path: the path of its own scope, which a Map or
Parallel state records when it is an inner one (`Machine.run_entered`). At the top level the records
hand a document on from each visit to the next (`Run.walked_handover`).
-/
namespace StateCheck
set_option autoImplicit false

namespace Log

/-! ## What a log enters and what its records go through -/

/-- The names of the states that are entered, at all depths. -/
def entered (log : Log) : Multiset String := ↑(log.visits.map (·.state))

/-- The names on the paths of inner scopes that are recorded, at all depths. -/
def traversed (log : Log) : Multiset String :=
  ↑(log.maps.flatMap (·.iterationPaths)).flatten +
    ↑(log.parallels.flatMap (·.branchPaths)).flatten

def topVisits (log : Log) : List StateExecution := log.visits.filter (·.scope == "")

theorem entered_append (a b : Log) : entered (a ++ b) = entered a + entered b := by
  simp only [entered, visits, List.filterMap_append, List.map_append, ← Multiset.coe_add]

theorem traversed_append (a b : Log) : traversed (a ++ b) = traversed a + traversed b := by
  simp only [traversed, maps, parallels, List.filterMap_append, List.flatMap_append,
    List.flatten_append, ← Multiset.coe_add]
  exact add_add_add_comm _ _ _ _

theorem topVisits_append (a b : Log) : topVisits (a ++ b) = topVisits a ++ topVisits b := by
  simp only [topVisits, visits, List.filterMap_append, List.filter_append]

theorem entered_visit (v : StateExecution) (log : Log) :
    entered (.visit v :: log) = v.state ::ₘ entered log := rfl

theorem traversed_visit (v : StateExecution) (log : Log) :
    traversed (.visit v :: log) = traversed log := rfl

theorem traversed_map (e : MapExecution) (completed : Bool) :
    traversed [.map e completed] = ↑e.iterationPaths.flatten := by
  show ↑(e.iterationPaths ++ []).flatten + (0 : Multiset String) = _
  rw [List.append_nil, add_zero]

theorem traversed_parallel (e : ParallelExecution) (completed : Bool) :
    traversed [.parallel e completed] = ↑e.branchPaths.flatten := by
  show (0 : Multiset String) + ↑(e.branchPaths ++ []).flatten = _
  rw [List.append_nil, zero_add]

/-- No visit of the log is at the top level. -/
def Below (log : Log) : Prop := ∀ e ∈ log, ∀ v, e = .visit v → v.scope ≠ ""

theorem topVisits_eq_nil {log : Log} (h : log.Below) : log.topVisits = [] := by
  refine List.filter_eq_nil_iff.mpr fun v hv => ?_
  obtain ⟨event, hevent, hvisit⟩ := List.mem_filterMap.mp hv
  cases event <;> cases hvisit
  simpa using h _ hevent v rfl

theorem topVisits_visit {v : StateExecution} {log : Log} (hv : v.scope = "") (h : log.Below) :
    topVisits (.visit v :: log) = [v] := by
  rw [← List.singleton_append, topVisits_append, topVisits_eq_nil h, List.append_nil]
  exact List.filter_singleton.trans (by rw [hv]; rfl)

/-- As many entries as the records of the log go through. -/
def Balanced (log : Log) : Prop := log.entered = log.traversed

end Log

namespace Run

theorem joins_balanced : Joins Log.Balanced where
  nil := rfl
  append {a b} ha hb := by
    rw [Log.Balanced, Log.entered_append, Log.traversed_append, ha, hb]

/-! ## Entries and paths -/

/-- A run enters the states on its path and those on the paths that it records. -/
def Accounted (r : ScopeRun) : Prop := r.log.entered = ↑r.path + r.log.traversed

theorem inOrder_entered {Ran : Nat → ScopeRun → Prop} (hran : ∀ i r, Ran i r → Accounted r)
    {i : Nat} {runs : List ScopeRun} {outputs : Except Fault (List Json)} {log : Log}
    (h : InOrder Ran i runs outputs log) :
    log.entered = ↑(runs.map (·.path)).flatten + log.traversed := by
  induction h with
  | done i => rfl
  | unready i fault => rfl
  | @failed i r fault state hr _ =>
    rw [hran i r hr, List.map_singleton, List.flatten_singleton]
  | @next i r v rest outputs log hr _ _ ih =>
    rw [Log.entered_append, Log.traversed_append, ih, hran i r hr, List.map_cons,
      List.flatten_cons, ← Multiset.coe_add]
    exact add_add_add_comm _ _ _ _

theorem stepped_balanced {maxSteps : Nat} {label : String} {st : State}
    {result : Except Fault Step} {log : Log}
    (hinner : ∀ inner ∈ st.kind.scopes, ∀ label r, inner.Ran maxSteps label r → Accounted r)
    (h : Stepped maxSteps label st result log) : log.Balanced := by
  refine joins_balanced.stepped (fun _ => rfl) (fun _ => rfl) ?_ ?_ h
  · rintro name comment spec processor rfl runs outputs log hruns
    have hentered := inOrder_entered
      (fun i r hr => hinner processor (List.mem_singleton.mpr rfl) _ r hr) hruns
    rw [Log.Balanced, Log.entered_append, Log.traversed_append, Log.traversed_map, hentered]
    exact (add_zero _).trans (add_comm _ _)
  · rintro name comment spec branches rfl runs outputs log hruns
    have hentered := inOrder_entered
      (fun i r ⟨b, hb, hr⟩ => hinner b (List.mem_of_getElem? hb) _ r hr) hruns
    rw [Log.Balanced, Log.entered_append, Log.traversed_append, Log.traversed_parallel, hentered]
    exact (add_zero _).trans (add_comm _ _)

theorem walked_entered {m : Machine} {maxSteps : Nat} {label : String} {left : Nat}
    {current : String} {last : Option String} {document : Json} {result : Except Located Json}
    {path : List String} {log : Log}
    (hstepped : ∀ st ∈ m.states, ∀ result log, Stepped maxSteps label st result log → log.Balanced)
    (h : Walked m maxSteps label left current last document result path log) :
    log.entered = ↑path + log.traversed := by
  induction h with
  | ceiling current last document => rfl
  | lost left last document hst => rfl
  | failed left last document hst hlog =>
    have hbalanced := hstepped _ (Machine.mem_of_state? hst) _ _ hlog
    rw [Log.entered_visit, Log.traversed_visit, hbalanced, ← Multiset.singleton_add]
    rfl
  | finished left last document hst hlog =>
    have hbalanced := hstepped _ (Machine.mem_of_state? hst) _ _ hlog
    rw [Log.entered_visit, Log.traversed_visit, hbalanced, ← Multiset.singleton_add]
    rfl
  | moved last document hst hlog _ ih =>
    have hbalanced := hstepped _ (Machine.mem_of_state? hst) _ _ hlog
    rw [Log.entered_append, Log.traversed_append, Log.entered_visit, Log.traversed_visit,
      hbalanced, ih, ← Multiset.cons_coe, Multiset.cons_add, Multiset.cons_add]
    congr 1
    exact add_left_comm _ _ _

/-! ## Records of the top level -/

theorem childLabel_ne_empty (parent container : String) (index : Nat) :
    childLabel parent container index ≠ "" := by
  intro h
  have hlength := congrArg String.length h
  unfold childLabel at hlength
  split at hlength <;> simp [String.length_append] at hlength

theorem joins_below : Joins Log.Below := joins_forall _

theorem stepped_below {maxSteps : Nat} {label : String} {st : State}
    {result : Except Fault Step} {log : Log}
    (hinner : ∀ inner ∈ st.kind.scopes, ∀ label, label ≠ "" → ∀ r, inner.Ran maxSteps label r →
      r.log.Below)
    (h : Stepped maxSteps label st result log) : log.Below := by
  have hfault : ∀ fault, Log.Below [.fault fault] := by simp [Log.Below]
  refine joins_below.stepped hfault (by simp [Log.Below]) ?_ ?_ h
  · rintro name comment spec processor rfl runs outputs log hruns
    refine joins_below.append (joins_below.inOrder hfault (fun i r hr => ?_) hruns)
      (by simp [Log.Below])
    exact hinner processor (List.mem_singleton.mpr rfl) _ (childLabel_ne_empty _ _ _) r hr
  · rintro name comment spec branches rfl runs outputs log hruns
    refine joins_below.append (joins_below.inOrder hfault (fun i r ⟨b, hb, hr⟩ => ?_) hruns)
      (by simp [Log.Below])
    exact hinner b (List.mem_of_getElem? hb) _ (childLabel_ne_empty _ _ _) r hr

/-- Records of visits that hand a document on: the first gets the input, each other one what the
one before it gave, and the last one gives the output, if there is one. -/
structure Handover (input : Json) (result : Except Located Json) (visits : List StateExecution) :
    Prop where
  first : ∀ v, visits.head? = some v → v.input = input
  next : visits.IsChain fun a b => a.output = some b.input
  last : ∀ output, result = .ok output → ∃ v, visits.getLast? = some v ∧ v.output = some output

theorem walked_handover {m : Machine} {maxSteps left : Nat} {current : String}
    {last : Option String} {document : Json} {result : Except Located Json} {path : List String}
    {log : Log}
    (hstepped : ∀ st ∈ m.states, ∀ result log, Stepped maxSteps "" st result log → log.Below)
    (h : Walked m maxSteps "" left current last document result path log) :
    log.topVisits.map (·.state) = path ∧ Handover document result log.topVisits := by
  -- What a state logs is below the top level, so that only its own visit stays.
  have htop : ∀ {st result log} (v : StateExecution), v.scope = "" → st ∈ m.states →
      Stepped maxSteps "" st result log → Log.topVisits (.visit v :: log) = [v] :=
    fun v hv hst hlog => Log.topVisits_visit hv (hstepped _ hst _ _ hlog)
  induction h with
  | ceiling current last document => exact ⟨rfl, nofun, .nil, nofun⟩
  | lost left last document hst => exact ⟨rfl, nofun, .nil, nofun⟩
  | failed left last document hst hlog =>
    rw [htop _ rfl (Machine.mem_of_state? hst) hlog]
    exact ⟨rfl, by simp, .singleton _, nofun⟩
  | @finished left current last document st output log hst hlog =>
    rw [htop _ rfl (Machine.mem_of_state? hst) hlog]
    exact ⟨rfl, by simp, .singleton _, by simp⟩
  | @moved left current last document st target output log rest result path hst hlog _ ih =>
    obtain ⟨hpath, hfirst, hnext, hlast⟩ := ih
    rw [Log.topVisits_append, htop _ rfl (Machine.mem_of_state? hst) hlog, List.singleton_append]
    refine ⟨by rw [List.map_cons, hpath], by simp, ?_, fun v hv => ?_⟩
    · refine List.isChain_cons.mpr ⟨fun b hb => ?_, hnext⟩
      rw [hfirst b hb]
    · obtain ⟨final, hfinal, houtput⟩ := hlast v hv
      refine ⟨final, ?_, houtput⟩
      rw [List.getLast?_cons, hfinal]
      rfl

end Run

theorem Machine.run_accounted {m : Machine} {maxSteps : Nat} {label : String} {r : ScopeRun}
    (h : m.Ran maxSteps label r) : Run.Accounted r := by
  refine Machine.Ran.induction (P := fun _ _ r => Run.Accounted r) ?_ h
  intro m label r document ih hwalked
  refine Run.walked_entered (fun st hst result log hlog => ?_) hwalked
  exact Run.stepped_balanced (ih st hst) hlog

theorem Machine.run_below {m : Machine} {maxSteps : Nat} {label : String} (hlabel : label ≠ "")
    {r : ScopeRun} (h : m.Ran maxSteps label r) : r.log.Below := by
  revert hlabel
  refine Machine.Ran.induction (P := fun _ label r => label ≠ "" → r.log.Below) ?_ h
  intro m label r document ih hwalked hlabel
  refine Run.joins_below.walked (by simp [Log.Below]) (by simp [Log.Below, hlabel])
    (by simp [Log.Below]) (fun st hst result log hlog => ?_) hwalked
  exact Run.stepped_below (fun inner hinner label hlabel r hr =>
    ih st hst inner hinner label r hr hlabel) hlog

theorem Machine.execution_handover (m : Machine) (input : Json) (engine : MockEngine)
    (options : ExecutionOptions) :
    let r := m.execution input engine options
    r.log.topVisits.map (·.state) = r.path ∧ Run.Handover input r.output r.log.topVisits :=
  Run.walked_handover (fun _ _ _ _ hlog =>
    Run.stepped_below (fun _ _ _ hlabel _ hr => Machine.run_below hlabel hr) hlog)
    (m.execution_walked input engine options)

/-- The trace of an execution loses no visit and invents none. The visits at the top level are the
path of the execution and hand the input on, up to the output when the execution succeeds; all
visits together are those on the path and on the recorded paths of inner scopes. -/
theorem Machine.execute_conserves (m : Machine) (input : Json) (engine : MockEngine)
    (options : ExecutionOptions) :
    let trace := (m.execute input engine options).1
    let top := trace.stateExecutions.filter (·.scope == "")
    top.map (·.state) = trace.executionPath ∧
      (∀ v, top.head? = some v → v.input = input) ∧
      top.IsChain (fun a b => a.output = some b.input) ∧
      (trace.success = true → ∃ v, top.getLast? = some v ∧ v.output = some trace.output) ∧
      (↑(trace.stateExecutions.map (·.state)) : Multiset String) =
        ↑trace.executionPath + ↑(trace.mapExecutions.flatMap (·.iterationPaths)).flatten +
          ↑(trace.parallelExecutions.flatMap (·.branchPaths)).flatten := by
  intro trace top
  have hran := m.execution_ran input engine options
  have htrace : trace = (m.execution input engine options).trace := rfl
  have htop : top = (m.execution input engine options).log.topVisits := by
    simp only [top, htrace, ScopeRun.trace_stateExecutions]
    rfl
  obtain ⟨hpath, hfirst, hnext, hlast⟩ := m.execution_handover input engine options
  rw [htop]
  refine ⟨by rw [hpath, htrace, ScopeRun.trace_executionPath], hfirst, hnext, ?_, ?_⟩
  · intro hsuccess
    exact hlast _ ((ScopeRun.trace_success_iff _).mp hsuccess)
  · have haccounted := Machine.run_accounted hran
    simp only [htrace, ScopeRun.trace_stateExecutions, ScopeRun.trace_executionPath,
      ScopeRun.trace_mapExecutions, ScopeRun.trace_parallelExecutions]
    rw [add_assoc]
    exact haccounted

end StateCheck
