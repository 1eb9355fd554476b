import StateCheck.Proofs.Run.Plain
import StateCheck.Proofs.Run.Step
/-!
Inner scopes one after the other.

`Run.turns` runs inner scopes in the order of a list, each in the session that the one before it
left. A Map or Parallel state runs its own up to the first that fails: what it collects is what all
turns give (`Run.inOrder_of_all`), or the fault of the first turn that fails with what was recorded
up to it (`Run.inOrder_of_first`).
-/
namespace StateCheck
set_option autoImplicit false

namespace Run

/-! ## Turns -/

/-- The session that the first `k` inner scopes leave. -/
def sessionBefore (jobs : List (Session → SubRun)) (s : Session) (k : Nat) : Session :=
  (jobs.take k).foldl (fun s job => (job s).session) s

/-- The runs of inner scopes in order, whether or not those before failed. -/
def turns : List (Session → SubRun) → Session → List SubRun
  | [], _ => []
  | job :: rest, s => job s :: turns rest (job s).session

section Turns
variable {jobs : List (Session → SubRun)} {s : Session}

theorem getElem?_turns (k : Nat) :
    (turns jobs s)[k]? = jobs[k]?.map fun job => job (sessionBefore jobs s k) := by
  induction jobs generalizing s k with
  | nil => rfl
  | cons job rest ih =>
    cases k with
    | zero => rfl
    | succ k =>
      rw [turns, List.getElem?_cons_succ, ih, List.getElem?_cons_succ]
      rfl

theorem length_turns : (turns jobs s).length = jobs.length := by
  induction jobs generalizing s with
  | nil => rfl
  | cons job rest ih => rw [turns, List.length_cons, ih, List.length_cons]

theorem mem_turns {turn : SubRun} (h : turn ∈ turns jobs s) :
    ∃ job ∈ jobs, ∃ before, turn = job before := by
  obtain ⟨k, hk⟩ := List.mem_iff_getElem?.mp h
  rw [getElem?_turns] at hk
  obtain ⟨job, hjob, rfl⟩ := Option.map_eq_some_iff.mp hk
  exact ⟨job, List.mem_of_getElem? hjob, _, rfl⟩

theorem sessionBefore_keeps {P : Session → Prop} (h : ∀ job ∈ jobs, ∀ s, P s → P (job s).session)
    (hs : P s) (k : Nat) : P (sessionBefore jobs s k) := by
  induction jobs generalizing s k with
  | nil =>
    rw [sessionBefore, List.take_nil]
    exact hs
  | cons job rest ih =>
    cases k with
    | zero => exact hs
    | succ k =>
      have hfirst := h job (List.mem_cons_self ..) s hs
      exact ih (fun job hjob => h job (List.mem_cons_of_mem _ hjob)) hfirst k

/-! ## Up to the first that fails -/

theorem filterMap_path_cons (a : SubRun) (rest : List SubRun) :
    (a :: rest).filterMap (·.path) = a.path.toList ++ rest.filterMap (·.path) := by
  rw [List.filterMap_cons]
  cases a.path <;> rfl

theorem inOrder_of_all {outputs : List Json}
    (h : (turns jobs s).map (·.output) = outputs.map Except.ok) :
    inOrder jobs s = ⟨.ok outputs, (turns jobs s).filterMap (·.path),
      (turns jobs s).flatMap (·.log), sessionBefore jobs s jobs.length⟩ := by
  induction jobs generalizing s outputs with
  | nil =>
    obtain rfl : outputs = [] := List.map_eq_nil_iff.mp h.symm
    rfl
  | cons job rest ih =>
    rw [turns, List.map_cons] at h
    obtain ⟨v, more, rfl, hv, hmore⟩ := List.map_eq_cons_iff.mp h.symm
    rw [inOrder_of_ok hv.symm, ih hmore.symm, turns, filterMap_path_cons]
    rfl

theorem inOrder_of_first {k : Nat} {a : SubRun} {fault : Fault} (hk : (turns jobs s)[k]? = some a)
    (ha : a.output = .error fault)
    (hbefore : ∀ b ∈ (turns jobs s).take k, ∃ v, b.output = .ok v) :
    inOrder jobs s = ⟨.error fault, ((turns jobs s).take (k + 1)).filterMap (·.path),
      ((turns jobs s).take (k + 1)).flatMap (·.log), a.session⟩ := by
  induction jobs generalizing s k with
  | nil => cases hk
  | cons job rest ih =>
    cases k with
    | zero =>
      obtain rfl : job s = a := Option.some.inj hk
      rw [inOrder_of_error ha, turns, List.take_succ_cons, List.take_zero, filterMap_path_cons]
      simp only [List.filterMap_nil, List.flatMap_cons, List.flatMap_nil, List.append_nil]
    | succ k =>
      rw [turns, List.take_succ_cons] at hbefore
      obtain ⟨v, hv⟩ := hbefore _ (List.mem_cons_self ..)
      have hrest := ih (s := (job s).session) (k := k) hk fun b hb =>
        hbefore b (List.mem_cons_of_mem _ hb)
      rw [inOrder_of_ok hv, hrest, turns, List.take_succ_cons, filterMap_path_cons]
      rfl

end Turns

/-! ## Iterations and branches -/

/-- The input of an iteration: its item, or what the item selector makes of it. -/
def itemInput (name : String) (spec : MapSpec) (context : Context) (effective : Json)
    (retryCount index : Nat) (item : Json) : Process Json :=
  match spec.itemSelector with
  | none => pure item
  | some t =>
    .draw (Template.render
      ⟨effective, (context.withMapItem index item).document name retryCount⟩ t)

/-- The iterations of a Map state on numbered items, in the order of the list. -/
def iterationJobs (name : String) (spec : MapSpec) (runItem : ScopeRunner) (context : Context)
    (label : String) (effective : Json) (retryCount : Nat) (order : List (Nat × Json)) :
    List (Session → SubRun) :=
  order.map fun entry =>
    iteration name spec runItem context label effective retryCount entry.1 entry.2

def plainMap : MapSpec where
  io := {}
  resultPath := .whole
  resultSelector := none
  itemsPath := none
  itemSelector := none
  mode := .inline
  maxConcurrency := none
  itemReader := none
  itemBatcher := none
  resultWriter := none
  retry := []
  catchers := []
  transition := .finish

/-- The branches of a Parallel state, in order. -/
def branchJobs (name : String) (runBranches : List ScopeRunner) (context : Context)
    (label : String) (input : Json) : List (Session → SubRun) :=
  runBranches.mapIdx fun index runBranch =>
    fun s => .ofScope (runBranch context (childLabel label name index) input s)

/-- The raw result of a Map state: the outputs, or the summary of the result writer. -/
def mapResult (name : String) (spec : MapSpec) (effective ctx : Json) (context : Context)
    (outputs : List Json) : Process Json :=
  match spec.resultWriter with
  | none => pure (.arr outputs)
  | some writer => writerSummary name writer effective ctx context

def concludeMap (name : String) (spec : MapSpec) (context : Context) (raw effective ctx : Json)
    (outputs : List Json) : Process Json := do
  let result ← mapResult name spec effective ctx context outputs
  finish raw result spec.resultSelector spec.resultPath spec.io.outputPath ctx

theorem mapAttempt_eq (name : String) (spec : MapSpec) (runItem : ScopeRunner) (context : Context)
    (label : String) (raw : Json) (retryCount : Nat) :
    mapAttempt name spec runItem context label raw retryCount = (do
      let ctx := context.document name retryCount
      let effective ← .eval (spec.io.inputPath.select ⟨raw, ctx⟩)
      let items ← mapItems name spec effective ctx
      let inputs ← iterationInputs spec.itemBatcher items effective ctx
      let jobs := iterationJobs name spec runItem context label effective retryCount
        (inputs.mapIdx Prod.mk)
      let outputs ← collect jobs fun paths completed => .map ⟨name, paths⟩ completed
      concludeMap name spec context raw effective ctx outputs) := by
  have hjobs : ∀ effective (inputs : List Json), (inputs.mapIdx fun index item =>
      iteration name spec runItem context label effective retryCount index item) =
        iterationJobs name spec runItem context label effective retryCount
          (inputs.mapIdx Prod.mk) := by
    intro effective inputs
    refine List.mapIdx_eq_iff.mpr fun i => ?_
    rw [iterationJobs, List.getElem?_map, List.getElem?_mapIdx, Option.map_map]
    rfl
  unfold mapAttempt concludeMap mapResult
  simp only [hjobs]
  cases spec.resultWriter <;> rfl

section Branches
variable {name : String} {maxSteps : Nat} {branches : List Machine} {context : Context}
  {label : String} {input : Json}

theorem getElem?_branchJobs (k : Nat) :
    (branchJobs name (runMachines maxSteps branches) context label input)[k]? =
      branches[k]?.map fun b => fun s =>
        .ofScope (b.run maxSteps context (childLabel label name k) input s) := by
  rw [branchJobs, runMachines_eq_map, List.getElem?_mapIdx, List.getElem?_map, Option.map_map]
  rfl

theorem mem_branchJobs {job : Session → SubRun}
    (h : job ∈ branchJobs name (runMachines maxSteps branches) context label input) :
    ∃ b ∈ branches, ∃ index, job = fun s =>
      .ofScope (b.run maxSteps context (childLabel label name index) input s) := by
  obtain ⟨k, hk⟩ := List.mem_iff_getElem?.mp h
  rw [getElem?_branchJobs] at hk
  obtain ⟨b, hb, rfl⟩ := Option.map_eq_some_iff.mp hk
  exact ⟨b, List.mem_of_getElem? hb, k, rfl⟩

end Branches

section Iteration
variable {name : String} {spec : MapSpec} {runItem : ScopeRunner} {context : Context}
  {label : String} {effective : Json} {retryCount index : Nat} {item : Json} {s : Session}

theorem iteration_of_error {fault : Fault}
    (h : (itemInput name spec context effective retryCount index item s).result = .error fault) :
    iteration name spec runItem context label effective retryCount index item s =
      ⟨.error fault, none, (itemInput name spec context effective retryCount index item s).log,
        (itemInput name spec context effective retryCount index item s).session⟩ := by
  unfold iteration
  unfold itemInput at h ⊢
  cases hselector : spec.itemSelector with
  | none => rw [hselector] at h; cases h
  | some t =>
    rw [hselector] at h
    simp only [h]

theorem iteration_of_ok {document : Json}
    (h : (itemInput name spec context effective retryCount index item s).result = .ok document) :
    iteration name spec runItem context label effective retryCount index item s =
      .ofScope (runItem (context.withMapItem index item) (childLabel label name index) document
        (itemInput name spec context effective retryCount index item s).session) := by
  unfold iteration
  unfold itemInput at h ⊢
  cases hselector : spec.itemSelector with
  | none => rw [hselector] at h; cases h; rfl
  | some t =>
    rw [hselector] at h
    simp only [h]

theorem iteration_path_eq_none_iff :
    (iteration name spec runItem context label effective retryCount index item s).path = none ↔
      ∃ fault, (itemInput name spec context effective retryCount index item s).result =
        .error fault := by
  cases h : (itemInput name spec context effective retryCount index item s).result with
  | error fault =>
    rw [iteration_of_error h]
    exact ⟨fun _ => ⟨fault, rfl⟩, fun _ => rfl⟩
  | ok document =>
    rw [iteration_of_ok h]
    constructor
    · intro hpath
      cases hpath
    · rintro ⟨fault, hfault⟩
      cases hfault

theorem iteration_path_of_ok {v : Json}
    (h : (iteration name spec runItem context label effective retryCount index item s).output =
      .ok v) :
    (iteration name spec runItem context label effective retryCount index item s).path.isSome =
      true := by
  refine Option.isSome_iff_ne_none.mpr fun hpath => ?_
  obtain ⟨fault, hfault⟩ := iteration_path_eq_none_iff.mp hpath
  rw [iteration_of_error hfault] at h
  cases h

end Iteration

end Run

namespace Process.Composes

variable {P : {α : Type} → Process α → Prop} {Rendered : Json → Prop} {Asked : String → Prop}
  (hP : Composes P Rendered Asked)
include hP

theorem itemInput (name : String) {spec : MapSpec} (context : Context) (effective : Json)
    (retryCount index : Nat) (item : Json) (h : ∀ t ∈ spec.itemSelector.toList, Rendered t) :
    P (Run.itemInput name spec context effective retryCount index item) := by
  unfold Run.itemInput
  cases hselector : spec.itemSelector with
  | none => exact hP.pure _
  | some t =>
    rw [hselector] at h
    exact hP.draw _ (h t (List.mem_singleton.mpr rfl))

theorem concludeMap (name : String) {spec : MapSpec} (context : Context)
    (raw effective ctx : Json) (outputs : List Json)
    (hwriter : ∀ t ∈ (spec.resultWriter.bind writerTemplate?).toList, Rendered t)
    (hselector : ∀ t ∈ spec.resultSelector.toList, Rendered t) :
    P (Run.concludeMap name spec context raw effective ctx outputs) := by
  refine hP.bind ?_ fun result => hP.finish _ _ _ _ _ hselector
  unfold Run.mapResult
  cases hwrites : spec.resultWriter with
  | none => exact hP.pure _
  | some writer =>
    rw [hwrites] at hwriter
    exact hP.writerSummary _ _ _ _ hwriter

end Process.Composes
end StateCheck
