import Mathlib.Data.List.Chain
import StateCheck.Proofs.Run.Course
/-!
Executions walk along the transitions of their definition.

`Machine.IsWalk` is a path through one scope that starts where the scope starts and goes from state
to successor. In a closed machine every run of a scope, at every depth, is such a walk, and no scope
is ever sent to a state that it does not have (`Machine.run_sound`).
-/
namespace StateCheck
set_option autoImplicit false

/-! ## Walks through a scope -/

/-- Whether the state `a` may move to `b`. -/
def Machine.Edge (m : Machine) (a b : String) : Prop :=
  ∃ st, m.state? a = some st ∧ b ∈ st.successors

/-- A path of at most `maxSteps` states along the edges of the machine, from its start. -/
structure Machine.IsWalk (m : Machine) (maxSteps : Nat) (path : List String) : Prop where
  eq_nil_iff : path = [] ↔ maxSteps = 0
  head_eq : ∀ name, path.head? = some name → name = m.startAt
  contains : ∀ name ∈ path, m.contains name = true
  edges : path.IsChain m.Edge
  length_le : path.length ≤ maxSteps

/-- Whether the last state of the path may finish the machine. -/
def Machine.Finishes (m : Machine) (path : List String) : Prop :=
  ∃ name st, path.getLast? = some name ∧ m.state? name = some st ∧ Run.CanFinish st

/-- The paths of inner scopes: each walks through the machine of its index, and finishes it unless
it is the last and its scope failed. -/
def SubWalks (scopeAt : Nat → Option Machine) (maxSteps : Nat) (completed : Bool)
    (paths : List (List String)) : Prop :=
  ∀ i path, paths[i]? = some path → ∃ inner, scopeAt i = some inner ∧
    inner.IsWalk maxSteps path ∧
    (completed = true ∨ i + 1 < paths.length → inner.Finishes path)

theorem SubWalks.nil {scopeAt : Nat → Option Machine} {maxSteps : Nat} {completed : Bool} :
    SubWalks scopeAt maxSteps completed [] := by
  intro i path hpath
  cases hpath

theorem SubWalks.cons {scopeAt : Nat → Option Machine} {maxSteps : Nat} {completed : Bool}
    {inner : Machine} {path : List String} {rest : List (List String)}
    (hinner : scopeAt 0 = some inner) (hwalk : inner.IsWalk maxSteps path)
    (hfinishes : completed = true ∨ rest ≠ [] → inner.Finishes path)
    (hrest : SubWalks (fun i => scopeAt (i + 1)) maxSteps completed rest) :
    SubWalks scopeAt maxSteps completed (path :: rest) := by
  intro i path' hpath
  cases i with
  | zero =>
    cases hpath
    refine ⟨inner, hinner, hwalk, fun h => hfinishes (h.imp_right fun hlength => ?_)⟩
    rintro rfl
    simp at hlength
  | succ i =>
    obtain ⟨inner', hinner', hwalk', hfinishes'⟩ := hrest i path' hpath
    exact ⟨inner', hinner', hwalk', fun h => hfinishes' (h.imp_right fun hlength => by
      simpa using hlength)⟩

/-- Whether an event may come up under containers: inner scopes walk through what a container of
the name owns, and no transition is lost. -/
def Event.Sound (containers : List Container) (maxSteps : Nat) : Event → Prop
  | .map e completed => ∃ processor, ⟨e.state, .map, [processor]⟩ ∈ containers ∧
      SubWalks (fun _ => some processor) maxSteps completed e.iterationPaths
  | .parallel e completed => ∃ branches, ⟨e.state, .parallel, branches⟩ ∈ containers ∧
      SubWalks (branches[·]?) maxSteps completed e.branchPaths
  | .lost _ => False
  | .visit _ | .retry _ | .fault _ => True

structure Machine.Sound (m : Machine) (containers : List Container) (maxSteps : Nat)
    (r : ScopeRun) : Prop where
  walk : m.IsWalk maxSteps r.path
  finishes : ∀ output, r.output = .ok output → m.Finishes r.path
  events : ∀ e ∈ r.log, e.Sound containers maxSteps

/-! ## Containers by depth -/

theorem mem_containersOfStates {states : List State} {st : State} (hst : st ∈ states)
    {c : Container} (h : c ∈ st.container?.toList ∨ c ∈ st.kind.innerContainers) :
    c ∈ containersOfStates states := by
  induction states with
  | nil => cases hst
  | cons first rest ih =>
    obtain ⟨name, comment, kind⟩ := first
    rw [containersOfStates]
    rcases List.mem_cons.mp hst with rfl | hst
    · exact List.mem_append_left _ (List.mem_append.mpr h)
    · exact List.mem_append_right _ (ih hst)

theorem mem_containersOfMachines {machines : List Machine} {inner : Machine}
    (hinner : inner ∈ machines) : inner.containers ⊆ containersOfMachines machines := by
  induction machines with
  | nil => cases hinner
  | cons first rest ih =>
    rw [containersOfMachines]
    rcases List.mem_cons.mp hinner with rfl | hinner
    · exact List.subset_append_left _ _
    · exact List.Subset.trans (ih hinner) (List.subset_append_right _ _)

theorem Machine.containers_eq (m : Machine) : m.containers = containersOfStates m.states := by
  cases m
  rw [Machine.containers]

theorem Machine.container_mem {m : Machine} {st : State} (hst : st ∈ m.states) {c : Container}
    (h : st.container? = some c) : c ∈ m.containers := by
  rw [m.containers_eq]
  exact mem_containersOfStates hst (.inl (by rw [h]; exact List.mem_singleton.mpr rfl))

theorem Machine.containers_subset {m inner : Machine} {st : State} (hst : st ∈ m.states)
    (hinner : inner ∈ st.kind.scopes) : inner.containers ⊆ m.containers := by
  intro c hc
  rw [m.containers_eq]
  refine mem_containersOfStates hst (.inr ?_)
  obtain ⟨name, comment, kind⟩ := st
  cases kind with
  | map spec processor =>
    obtain rfl := List.mem_singleton.mp hinner
    rw [StateKind.innerContainers]
    exact hc
  | parallel spec branches =>
    rw [StateKind.innerContainers]
    exact mem_containersOfMachines hinner hc
  | _ => cases hinner

theorem Event.Sound.mono {cs cs' : List Container} {maxSteps : Nat} (hsub : cs ⊆ cs') {e : Event}
    (h : e.Sound cs maxSteps) : e.Sound cs' maxSteps := by
  cases e with
  | map e completed =>
    obtain ⟨processor, hc, hwalks⟩ := h
    exact ⟨processor, hsub hc, hwalks⟩
  | parallel e completed =>
    obtain ⟨branches, hc, hwalks⟩ := h
    exact ⟨branches, hsub hc, hwalks⟩
  | _ => exact h

/-! ## Runs -/

namespace Run

theorem inOrder_walks {Ran : Nat → ScopeRun → Prop} (scopeAt : Nat → Option Machine)
    {cs : List Container} {maxSteps : Nat}
    (hran : ∀ i r, Ran i r → ∃ inner, scopeAt i = some inner ∧ inner.Sound cs maxSteps r)
    {i : Nat} {runs : List ScopeRun} {outputs : Except Fault (List Json)} {log : Log}
    (h : InOrder Ran i runs outputs log) :
    SubWalks (fun k => scopeAt (i + k)) maxSteps outputs.isOk (runs.map (·.path)) := by
  induction h with
  | done i => exact .nil
  | unready i fault => exact .nil
  | @failed i r fault state hr hout =>
    obtain ⟨inner, hinner, hsound⟩ := hran _ _ hr
    refine .cons hinner hsound.walk ?_ .nil
    rintro (hcompleted | hne)
    · cases hcompleted
    · exact (hne rfl).elim
  | @next i r v rest outputs log hr hout hrest ih =>
    obtain ⟨inner, hinner, hsound⟩ := hran _ _ hr
    have hshift : (fun k => scopeAt (i + 1 + k)) = fun k => scopeAt (i + (k + 1)) := by
      funext k
      congr 1
      omega
    have hsame : (outputs.map (v :: ·)).isOk = outputs.isOk := by
      cases outputs <;> rfl
    rw [hshift] at ih
    rw [hsame]
    exact .cons hinner hsound.walk (fun _ => hsound.finishes v hout) ih

theorem stepped_sound {m : Machine} {maxSteps : Nat} {label : String} {st : State}
    {result : Except Fault Step} {log : Log} (hst : st ∈ m.states)
    (hinner : ∀ inner ∈ st.kind.scopes, ∀ label r, inner.Ran maxSteps label r →
      inner.Sound inner.containers maxSteps r)
    (h : Stepped maxSteps label st result log) : ∀ e ∈ log, e.Sound m.containers maxSteps := by
  have hmono : ∀ inner ∈ st.kind.scopes, ∀ label r, inner.Ran maxSteps label r →
      inner.Sound m.containers maxSteps r := by
    intro inner hin label r hr
    obtain ⟨hwalk, hfin, hevents⟩ := hinner inner hin label r hr
    exact ⟨hwalk, hfin, fun e he => (hevents e he).mono (Machine.containers_subset hst hin)⟩
  have hfault : ∀ fault, ∀ e ∈ [Event.fault fault], e.Sound m.containers maxSteps := by
    simp [Event.Sound]
  refine (joins_forall _).stepped hfault (by simp [Event.Sound]) ?_ ?_ h
  · rintro name comment spec processor rfl runs outputs log hruns
    have hmem : processor ∈ StateKind.scopes (.map spec processor) := List.mem_singleton.mpr rfl
    have hran : ∀ i r, processor.Ran maxSteps (childLabel label name i) r →
        processor.Sound m.containers maxSteps r := fun i r hr => hmono processor hmem _ r hr
    have hevents := (joins_forall _).inOrder hfault (fun i r hr => (hran i r hr).events) hruns
    have hwalks := inOrder_walks (fun _ => some processor)
      (fun i r hr => ⟨processor, rfl, hran i r hr⟩) hruns
    refine (joins_forall _).append hevents fun e he => ?_
    rw [List.mem_singleton.mp he]
    exact ⟨processor, Machine.container_mem hst rfl, hwalks⟩
  · rintro name comment spec branches rfl runs outputs log hruns
    have hran : ∀ i r (b : Machine), branches[i]? = some b →
        b.Ran maxSteps (childLabel label name i) r → b.Sound m.containers maxSteps r :=
      fun i r b hb hr => hmono b (List.mem_of_getElem? hb) _ r hr
    have hevents := (joins_forall _).inOrder hfault
      (fun i r ⟨b, hb, hr⟩ => (hran i r b hb hr).events) hruns
    have hwalks := inOrder_walks (branches[·]?)
      (fun i r ⟨b, hb, hr⟩ => ⟨b, hb, hran i r b hb hr⟩) hruns
    refine (joins_forall _).append hevents fun e he => ?_
    rw [List.mem_singleton.mp he]
    refine ⟨branches, Machine.container_mem hst rfl, ?_⟩
    simpa using hwalks

theorem walked_path {m : Machine} (hm : m.Closed) {maxSteps : Nat} {label : String} {left : Nat}
    {current : String} {last : Option String} {document : Json} {result : Except Located Json}
    {path : List String} {log : Log} (hcurrent : m.contains current = true)
    (h : Walked m maxSteps label left current last document result path log) :
    (path = [] ↔ left = 0) ∧ (∀ name, path.head? = some name → name = current) ∧
      (∀ name ∈ path, m.contains name = true) ∧ path.IsChain m.Edge ∧ path.length ≤ left ∧
      ∀ output, result = .ok output → m.Finishes path := by
  obtain ⟨-, hclosed⟩ := m.closed_iff.mp hm
  induction h with
  | ceiling current last document => simp
  | lost left last document hst =>
    obtain ⟨st, hst'⟩ := Machine.contains_iff_state?.mp hcurrent
    rw [hst] at hst'
    cases hst'
  | failed left last document hst hstepped => simp [hcurrent]
  | @finished left current last document st output log hst hstepped =>
    have hfin : CanFinish st := hstepped.allows
    simp only [List.cons_ne_nil, Nat.add_eq_zero_iff, one_ne_zero, and_false]
    refine ⟨trivial, by simp, by simp [hcurrent], .singleton _, by simp, fun _ _ => ?_⟩
    exact ⟨current, st, rfl, hst, hfin⟩
  | @moved left current last document st target output log rest result path hst hstepped _ ih =>
    have htarget : target ∈ st.successors := hstepped.allows
    obtain ⟨-, hhead, hstates, hedges, hlength, hfin⟩ :=
      ih ((hclosed st (Machine.mem_of_state? hst)).1 target htarget)
    refine ⟨by simp, by simp, ?_, ?_, by simpa using hlength, ?_⟩
    · rintro name (_ | ⟨_, hname⟩)
      · exact hcurrent
      · exact hstates name hname
    · refine List.isChain_cons.mpr ⟨fun name hname => ?_, hedges⟩
      obtain rfl := hhead name hname
      exact ⟨st, hst, htarget⟩
    · intro v hv
      obtain ⟨name, st', hlast, hst', hcan⟩ := hfin v hv
      refine ⟨name, st', ?_, hst', hcan⟩
      rw [List.getLast?_cons, hlast]
      rfl

theorem walked_events {m : Machine} (hm : m.Closed) {maxSteps : Nat} {label : String} {left : Nat}
    {current : String} {last : Option String} {document : Json} {result : Except Located Json}
    {path : List String} {log : Log} (hcurrent : m.contains current = true)
    (hinner : ∀ st ∈ m.states, ∀ inner ∈ st.kind.scopes, ∀ label r, inner.Ran maxSteps label r →
      inner.Sound inner.containers maxSteps r)
    (h : Walked m maxSteps label left current last document result path log) :
    ∀ e ∈ log, e.Sound m.containers maxSteps := by
  obtain ⟨-, hclosed⟩ := m.closed_iff.mp hm
  refine (joins_forall _).walked (by simp [Event.Sound]) (by simp [Event.Sound]) ?_
    (fun st hst result log hlog => stepped_sound hst (hinner st hst) hlog) h
  intro target htarget hnone
  have hcontains : m.contains target = true := by
    rcases htarget with rfl | ⟨st, hst, hsuccessor⟩
    · exact hcurrent
    · exact (hclosed st hst).1 target hsuccessor
  obtain ⟨st, hst⟩ := Machine.contains_iff_state?.mp hcontains
  rw [hnone] at hst
  cases hst

end Run

theorem Machine.run_sound {m : Machine} (hm : m.Closed) {maxSteps : Nat} {label : String}
    {r : ScopeRun} (h : m.Ran maxSteps label r) : m.Sound m.containers maxSteps r := by
  revert hm
  refine Machine.Ran.induction (P := fun m _ r => m.Closed → m.Sound m.containers maxSteps r) ?_ h
  intro m label r document ih hwalked hm
  obtain ⟨hstart, hclosed⟩ := m.closed_iff.mp hm
  obtain ⟨hnil, hhead, hstates, hedges, hlength, hfin⟩ := Run.walked_path hm hstart hwalked
  refine ⟨⟨hnil, hhead, hstates, hedges, hlength⟩, hfin, ?_⟩
  refine Run.walked_events hm hstart (fun st hst inner hinner label r hr => ?_) hwalked
  exact ih st hst inner hinner label r hr ((hclosed st hst).2 inner hinner)

/-- An execution of a loaded machine goes along its edges, at every depth: no transition is lost,
the path of the execution is a walk, and so are the paths of all inner scopes in the machines of
the Map or Parallel state whose name their record has. -/
theorem Machine.execution_walks {v : Json} {m : Machine} (h : Machine.ofJson v = .ok m)
    (input : Json) (engine : MockEngine) (options : ExecutionOptions) :
    let log := (m.execution input engine options).log
    let trace := (m.execute input engine options).1
    (∀ target, Event.lost target ∉ log) ∧
      m.IsWalk options.maxSteps trace.executionPath ∧
      (trace.success = true → m.Finishes trace.executionPath) ∧
      (∀ e ∈ trace.mapExecutions, (∃ completed, Event.map e completed ∈ log) ∧
        ∀ completed, Event.map e completed ∈ log →
          ∃ processor, ⟨e.state, .map, [processor]⟩ ∈ m.containers ∧
            SubWalks (fun _ => some processor) options.maxSteps completed e.iterationPaths) ∧
      (∀ e ∈ trace.parallelExecutions, (∃ completed, Event.parallel e completed ∈ log) ∧
        ∀ completed, Event.parallel e completed ∈ log →
          ∃ branches, ⟨e.state, .parallel, branches⟩ ∈ m.containers ∧
            SubWalks (branches[·]?) options.maxSteps completed e.branchPaths) := by
  intro log trace
  have hsound := Machine.run_sound (Machine.closed_of_ofJson h)
    (m.execution_ran input engine options)
  have htrace : trace = (m.execution input engine options).trace := rfl
  have hpath : trace.executionPath = (m.execution input engine options).path := by
    rw [htrace, ScopeRun.trace_executionPath]
  refine ⟨fun target hlost => hsound.events _ hlost, by rw [hpath]; exact hsound.walk, ?_, ?_, ?_⟩
  · intro hsuccess
    rw [hpath]
    exact hsound.finishes _ ((ScopeRun.trace_success_iff _).mp hsuccess)
  · intro e he
    rw [htrace, ScopeRun.trace_mapExecutions] at he
    exact ⟨Log.mem_maps_iff.mp he, fun completed hevent => hsound.events _ hevent⟩
  · intro e he
    rw [htrace, ScopeRun.trace_parallelExecutions] at he
    exact ⟨Log.mem_parallels_iff.mp he, fun completed hevent => hsound.events _ hevent⟩

/-- Two iterations, each with a task whose failure is caught. -/
def caughtInside : Json :=
  .obj [
    ("StartAt", .str "Each"),
    ("States", .obj [
      ("Done", .obj [("Type", .str "Succeed")]),
      ("Each", .obj [
        ("ItemProcessor", .obj [
          ("StartAt", .str "Try"),
          ("States", .obj [
            ("Leave", .obj [("Type", .str "Succeed")]),
            ("Try", .obj [
              ("Catch", .arr [.obj [
                ("ErrorEquals", .arr [.str "States.ALL"]), ("Next", .str "Leave")]]),
              ("End", .bool true), ("Resource", .str "call"), ("Type", .str "Task")])])]),
        ("Next", .str "Done"), ("Type", .str "Map")])])]

/-- The machine that is read from the document. -/
def catching : Machine :=
  ⟨none, "Each", none, [⟨"Done", none, .succeed ⟨{}⟩⟩,
    ⟨"Each", none, .map ⟨{}, .whole, none, none, none, .inline, none, none, none, none, [], [],
        .next "Done"⟩
      ⟨none, "Try", none, [⟨"Leave", none, .succeed ⟨{}⟩⟩,
        ⟨"Try", none, .task ⟨{}, .whole, "call", none, none, none, none, none, [],
          [⟨["States.ALL"], "Leave", .whole⟩], .finish⟩⟩]⟩⟩]⟩

theorem ofJson_caughtInside : Machine.ofJson caughtInside = .ok catching := by cbv

theorem Machine.execution_walks_caught :
    ∃ m, Machine.ofJson caughtInside = .ok m ∧
      let options : ExecutionOptions := { maxSteps := 2, executionName := some "run" }
      let trace := (m.execute (.arr [.null, .null]) { config := {} } options).1
      trace.executionPath = ["Each", "Done"] ∧ trace.success = true ∧
        m.IsWalk 2 ["Each", "Done"] ∧ m.Finishes ["Each", "Done"] ∧
        ∃ completed processor, ⟨"Each", .map, [processor]⟩ ∈ m.containers ∧
          SubWalks (fun _ => some processor) 2 completed [["Try", "Leave"], ["Try", "Leave"]] := by
  let options : ExecutionOptions := { maxSteps := 2, executionName := some "run" }
  let trace := (catching.execute (.arr [.null, .null]) { config := {} } options).1
  obtain ⟨hpath, hsuccess, hmaps⟩ : trace.executionPath = ["Each", "Done"] ∧
      trace.success = true ∧
      trace.mapExecutions = [⟨"Each", [["Try", "Leave"], ["Try", "Leave"]]⟩] := by
    decide +kernel
  obtain ⟨-, hwalk, hfinishes, hinner, -⟩ := Machine.execution_walks ofJson_caughtInside
    (.arr [.null, .null]) { config := {} } options
  obtain ⟨⟨completed, hevent⟩, hsub⟩ := hinner ⟨"Each", [["Try", "Leave"], ["Try", "Leave"]]⟩
    (by rw [hmaps]; exact List.mem_singleton.mpr rfl)
  rw [hpath] at hwalk hfinishes
  exact ⟨catching, ofJson_caughtInside, hpath, hsuccess, hwalk, hfinishes hsuccess, completed,
    hsub completed hevent⟩

end StateCheck
