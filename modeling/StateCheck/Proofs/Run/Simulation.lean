import StateCheck.Proofs.Machine.Closed
import StateCheck.Proofs.Run.Policy
import StateCheck.Proofs.Run.Turns
/-!
Two runs of a machine side by side.

A `Simulation` says in which pairs of sessions two runs of one machine may stand, under which
ceilings of steps they go, and what may be different: whether labels and logs are compared, and at
which faults the first run may stop short of the second. Where the pairs are kept by rendering the
templates of the machine and by its calls, they are kept by its runs, at every depth
(`Simulation.scopes_run`): both give the same, or the first one was cut short.
-/
namespace StateCheck
set_option autoImplicit false
open Run

/-! ## Coupled runs -/

structure Coupling where
  /-- The sessions in which the two runs may stand at one place. -/
  Beside : Session → Session → Prop
  /-- Whether logs, and the labels in them, are compared. -/
  Traced : Prop
  /-- The faults at which the first run may stop short of the second. -/
  Cut : Fault → Prop

namespace Coupling

section Relations
variable (c : Coupling)

inductive Outcomes {α : Type} (o o' : Outcome α) : Prop
  | cut {fault : Fault} : o.result = .error fault → c.Cut fault → Outcomes o o'
  | same : o'.result = o.result → c.Beside o.session o'.session →
      (c.Traced → o'.log = o.log) → Outcomes o o'

def Processes {α : Type} (p p' : Process α) : Prop :=
  ∀ s s', c.Beside s s' → c.Outcomes (p s) (p' s')

inductive InnerRuns (a a' : SubRun) : Prop
  | cut {fault : Fault} : a.output = .error fault → c.Cut fault → InnerRuns a a'
  | same : a'.output = a.output → a'.path = a.path → c.Beside a.session a'.session →
      (c.Traced → a'.log = a.log) → InnerRuns a a'

/-- A scope that is cut short has gone a part of the other's path. -/
inductive ScopeRuns (r r' : ScopeRun) : Prop
  | cut {located : Located} : r.output = .error located → c.Cut located.fault →
      r.path <+: r'.path → ScopeRuns r r'
  | same : r'.output = r.output → r'.path = r.path → c.Beside r.session r'.session →
      (c.Traced → r'.log = r.log) → ScopeRuns r r'

def Scopes (run run' : ScopeRunner) : Prop :=
  ∀ context label label' input s s', (c.Traced → label' = label) → c.Beside s s' →
    c.ScopeRuns (run context label input s) (run' context label' input s')

end Relations

variable {c : Coupling} {α β : Type}

theorem Outcomes.after {o o' : Outcome α} {log log' : Log} (h : c.Outcomes o o')
    (hlog : c.Traced → log' = log) : c.Outcomes (o.after log) (o'.after log') := by
  cases h with
  | cut hresult hcut => exact .cut hresult hcut
  | same hresult hsession hafter =>
    refine .same hresult hsession fun htraced => ?_
    have hl := hlog htraced
    have ha := hafter htraced
    simp only [Outcome.after, hl, ha]

theorem Processes.bind {p p' : Process α} {f f' : α → Process β} (hp : c.Processes p p')
    (hf : ∀ a, c.Processes (f a) (f' a)) : c.Processes (p >>= f) (p' >>= f') := by
  intro s s' hs
  cases hp s s' hs with
  | cut hresult hcut =>
    refine .cut ?_ hcut
    rw [Process.bind_of_error hresult]
  | same hresult hsession hlog =>
    cases h : (p s).result with
    | error fault =>
      rw [Process.bind_of_error h, Process.bind_of_error (hresult.trans h)]
      exact .same rfl hsession hlog
    | ok a =>
      rw [Process.bind_of_ok h, Process.bind_of_ok (hresult.trans h)]
      exact (hf a _ _ hsession).after hlog

theorem ScopeRuns.inner {r r' : ScopeRun} (h : c.ScopeRuns r r') :
    c.InnerRuns (.ofScope r) (.ofScope r') := by
  cases h with
  | cut houtput hcut _ =>
    refine .cut ?_ hcut
    simp only [SubRun.ofScope, houtput, Except.mapError]
  | same houtput hpath hsession hlog =>
    exact .same (by simp only [SubRun.ofScope, houtput]) (by simp only [SubRun.ofScope, hpath])
      hsession hlog

theorem collect_processes {jobs jobs' : List (Session → SubRun)}
    (recorded : List (List String) → Bool → Event)
    (h : List.Forall₂ (fun job job' => ∀ s s', c.Beside s s' → c.InnerRuns (job s) (job' s'))
      jobs jobs') : c.Processes (collect jobs recorded) (collect jobs' recorded) := by
  -- The recorded paths are those of the whole list, so that the induction is on the runs in order.
  have hruns : ∀ s s', c.Beside s s' →
      (∃ fault, (inOrder jobs s).outputs = .error fault ∧ c.Cut fault) ∨
        ((inOrder jobs' s').outputs = (inOrder jobs s).outputs ∧
          (inOrder jobs' s').paths = (inOrder jobs s).paths ∧
          c.Beside (inOrder jobs s).session (inOrder jobs' s').session ∧
          (c.Traced → (inOrder jobs' s').log = (inOrder jobs s).log)) := by
    induction h with
    | nil => exact fun s s' hs => .inr ⟨rfl, rfl, hs, fun _ => rfl⟩
    | @cons job job' rest rest' hjob _ ih =>
      intro s s' hs
      cases hjob s s' hs with
      | cut houtput hcut => exact .inl ⟨_, by rw [inOrder_of_error houtput], hcut⟩
      | same houtput hpath hsession hlog =>
        cases hfirst : (job s).output with
        | error fault =>
          rw [inOrder_of_error hfirst, inOrder_of_error (houtput.trans hfirst)]
          exact .inr ⟨rfl, by simp only [hpath], hsession, hlog⟩
        | ok v =>
          rw [inOrder_of_ok hfirst, inOrder_of_ok (houtput.trans hfirst)]
          rcases ih _ _ hsession with ⟨fault, hrest, hcut⟩ | ⟨houtputs, hpaths, hend, hlogs⟩
          · exact .inl ⟨fault, by simp only [hrest, Except.map], hcut⟩
          · refine .inr ⟨by simp only [houtputs], by simp only [hpath, hpaths], hend, ?_⟩
            intro htraced
            simp only [hlog htraced, hlogs htraced]
  intro s s' hs
  rcases hruns s s' hs with ⟨fault, houtputs, hcut⟩ | ⟨houtputs, hpaths, hsession, hlog⟩
  · exact .cut houtputs hcut
  · refine .same houtputs hsession fun htraced => ?_
    simp only [collect, houtputs, hpaths, hlog htraced]

end Coupling

/-! ## Simulations -/

/-- Whether the state renders only templates of a kind, and asks the mock engine only under a name
of a kind. -/
def State.Within (Rendered : Json → Prop) (Asked : String → Prop) (st : State) : Prop :=
  (∀ t ∈ st.kind.templates, Rendered t) ∧ (st.kind.asks = true → Asked st.name)

/-- A coupling that is kept by rendering templates and by calls, with the ceilings of steps of the
two runs. Where these are different, the first run is cut short at its ceiling. -/
structure Simulation extends Coupling where
  low : Nat
  high : Nat
  Rendered : Json → Prop
  Asked : String → Prop
  low_le_high : low ≤ high
  cut_of_ceiling : low < high → ∀ fault : Fault, fault.catchable = false →
    fault.error = ErrorName.executionLimitExceeded → Cut fault
  fatal_of_cut : ∀ fault, Cut fault → fault.catchable = false
  draw : ∀ docs t, Rendered t → toCoupling.Processes (Process.draw (Template.render docs t))
    (Process.draw (Template.render docs t))
  call : ∀ input name, Asked name → toCoupling.Processes (Process.call name input)
    (Process.call name input)

namespace Simulation

theorem uncut_of_ceiling (maxSteps : Nat) (hlt : maxSteps < maxSteps) (fault : Fault)
    (_ : fault.catchable = false) (_ : fault.error = ErrorName.executionLimitExceeded) : False :=
  Nat.lt_irrefl _ hlt

theorem fatal_of_uncut (fault : Fault) (h : False) : fault.catchable = false :=
  h.elim

variable (sim : Simulation)

theorem composes : Process.Composes (fun p => sim.Processes p p) sim.Rendered sim.Asked where
  pure _ _ _ hs := .same rfl hs fun _ => rfl
  fail _ _ _ hs := .same rfl hs fun _ => rfl
  draw _ _ h := sim.draw _ _ h
  call _ _ h := sim.call _ _ h
  bind := Coupling.Processes.bind

/-! ## Policies -/

section Policies
variable {p : Policy} {label' : String}

theorem handle_processes (fault : Fault) : sim.Processes (p.handle fault)
    (Policy.handle { p with scope := label', maxSteps := sim.high } fault) := by
  show sim.Processes (p.handle fault) (p.handle fault)
  unfold Policy.handle
  split
  · intro s s' hs
    exact .same rfl hs fun _ => rfl
  · exact sim.composes.bind (sim.composes.eval _) fun document => sim.composes.pure _

variable {attempt attempt' : Nat → Process Json} {retryCount : Nat} {usage : Usage}
  {s s' : Session}

theorem policy_turn (h : sim.Outcomes (attempt retryCount s) (attempt' retryCount s'))
    (hdue : ∀ fault due, (attempt retryCount s).result = .error fault → fault.catchable = true →
      usage.due? fault.error = some due →
      (attempt' retryCount s').result = .error fault →
      sim.Beside (attempt retryCount s).session (attempt' retryCount s').session →
      (sim.Traced → (attempt' retryCount s').log = (attempt retryCount s).log) →
      sim.Outcomes (p.run attempt retryCount usage s)
        (Policy.run { p with scope := label', maxSteps := sim.high } attempt' retryCount usage
          s')) :
    sim.Outcomes (p.run attempt retryCount usage s)
      (Policy.run { p with scope := label', maxSteps := sim.high } attempt' retryCount usage
        s') := by
  cases h with
  | cut hresult hcut =>
    rw [Policy.run_of_fatal hresult (sim.fatal_of_cut _ hcut)]
    exact .cut rfl hcut
  | same hresult hsession hlog =>
    cases ha : (attempt retryCount s).result with
    | ok output =>
      rw [Policy.run_of_ok ha, Policy.run_of_ok (hresult.trans ha)]
      exact .same rfl hsession hlog
    | error fault =>
      have ha' := hresult.trans ha
      cases hcatch : fault.catchable with
      | false =>
        rw [Policy.run_of_fatal ha hcatch, Policy.run_of_fatal ha' hcatch]
        exact .same rfl hsession hlog
      | true =>
        cases hnext : usage.due? fault.error with
        | none =>
          rw [Policy.run_of_not_due ha hcatch hnext, Policy.run_of_not_due ha' hcatch hnext]
          exact (sim.handle_processes fault _ _ hsession).after hlog
        | some due => exact hdue fault due ha hcatch hnext ha' hsession hlog

theorem policy_processes (hlow : p.maxSteps = sim.low) (hlabel : sim.Traced → label' = p.scope)
    (h : ∀ k, sim.Processes (attempt k) (attempt' k)) (retryCount : Nat) (usage : Usage) :
    sim.Processes (p.run attempt retryCount usage)
      (Policy.run { p with scope := label', maxSteps := sim.high } attempt' retryCount usage) := by
  intro s s' hs
  refine sim.policy_turn (h retryCount s s' hs) ?_
  rintro fault ⟨r, number, usage'⟩ ha hcatch hdue ha' hsession hlog
  rcases Nat.lt_or_ge (retryCount + 1) p.maxSteps with hsteps | hsteps
  · have hsteps' : retryCount + 1 < sim.high := by
      have := sim.low_le_high
      omega
    rw [Policy.run_of_due ha hcatch hdue hsteps, Policy.run_of_due ha' hcatch hdue hsteps']
    have hrest := policy_processes hlow hlabel h ((retryCount + 1) % 2 ^ 32) usage'
    refine (hrest _ _ hsession).after fun htraced => ?_
    simp only [hlog htraced, Policy.retryRecord, hlabel htraced]
  · rw [Policy.run_of_ceiling ha hcatch hdue hsteps]
    -- The first run stops at its ceiling; so does the second if that is no higher.
    rcases sim.low_le_high.lt_or_eq with hlt | hceiling
    · exact .cut rfl (sim.cut_of_ceiling hlt _ rfl rfl)
    · rw [Policy.run_of_ceiling ha' hcatch hdue (by rwa [← hceiling, ← hlow]), hlow, hceiling]
      exact (sim.composes.fail _ _ _ hsession).after hlog
termination_by usage.left
decreasing_by exact Usage.left_of_due hdue

end Policies

/-! ## Attempts with inner scopes -/

section Attempts
variable {run run' : ScopeRunner} {context : Context} {label label' : String} {raw : Json}

theorem iteration_inner (hrun : sim.Scopes run run') (hlabel : sim.Traced → label' = label)
    {name : String} {spec : MapSpec} (hselector : ∀ t ∈ spec.itemSelector.toList, sim.Rendered t)
    (effective : Json) (retryCount index : Nat) (item : Json) {s s' : Session}
    (hs : sim.Beside s s') :
    sim.InnerRuns (iteration name spec run context label effective retryCount index item s)
      (iteration name spec run' context label' effective retryCount index item s') := by
  have hchild : sim.Traced → childLabel label' name index = childLabel label name index :=
    fun htraced => by rw [hlabel htraced]
  have hinput := sim.composes.itemInput name context effective retryCount index item hselector
  cases hinput s s' hs with
  | cut hresult hcut =>
    rw [iteration_of_error hresult]
    exact .cut rfl hcut
  | same hresult hsession hlog =>
    cases h : (itemInput name spec context effective retryCount index item s).result with
    | error fault =>
      rw [iteration_of_error h, iteration_of_error (hresult.trans h)]
      exact .same rfl rfl hsession hlog
    | ok document =>
      rw [iteration_of_ok h, iteration_of_ok (hresult.trans h)]
      exact (hrun _ _ _ _ _ _ hchild hsession).inner

theorem mapAttempt_processes (hrun : sim.Scopes run run') (hlabel : sim.Traced → label' = label)
    {name : String} {comment : Option String} {spec : MapSpec} {processor : Machine}
    (hst : State.Within sim.Rendered sim.Asked ⟨name, comment, .map spec processor⟩)
    (retryCount : Nat) :
    sim.Processes (mapAttempt name spec run context label raw retryCount)
      (mapAttempt name spec run' context label' raw retryCount) := by
  obtain ⟨htemplates, hasks⟩ := hst
  have hP := sim.composes
  have hbatch : ∀ t ∈ (spec.itemBatcher.bind (·.batchInput)).toList, sim.Rendered t :=
    fun t ht => htemplates t (by simp [StateKind.templates, ht])
  have hselector : ∀ t ∈ spec.itemSelector.toList, sim.Rendered t :=
    fun t ht => htemplates t (by simp [StateKind.templates, ht])
  have hresult : ∀ t ∈ spec.resultSelector.toList, sim.Rendered t :=
    fun t ht => htemplates t (by simp [StateKind.templates, ht])
  have hwriter : ∀ t ∈ (spec.resultWriter.bind writerTemplate?).toList, sim.Rendered t :=
    fun t ht => htemplates t (by simp [StateKind.templates, ht])
  rw [mapAttempt_eq, mapAttempt_eq]
  refine .bind (hP.eval _) fun effective => .bind (hP.mapItems _ _ hasks) fun items =>
    .bind (hP.iterationInputs _ _ _ hbatch) fun inputs => .bind (sim.collect_processes _ ?_)
    fun outputs => hP.concludeMap _ _ _ _ _ _ hwriter hresult
  refine List.forall₂_map_left_iff.mpr (List.forall₂_map_right_iff.mpr
    (List.forall₂_same.mpr fun entry _ s s' hs => ?_))
  exact sim.iteration_inner hrun hlabel hselector _ _ _ _ hs

theorem parallelAttempt_processes {name : String} {comment : Option String} {spec : ParallelSpec}
    {branches : List Machine}
    (hruns : ∀ b ∈ branches, sim.Scopes (b.run sim.low) (b.run sim.high))
    (hlabel : sim.Traced → label' = label)
    (hst : State.Within sim.Rendered sim.Asked ⟨name, comment, .parallel spec branches⟩)
    (retryCount : Nat) :
    sim.Processes
      (parallelAttempt name spec (runMachines sim.low branches) context label raw retryCount)
      (parallelAttempt name spec (runMachines sim.high branches) context label' raw
        retryCount) := by
  obtain ⟨htemplates, -⟩ := hst
  have hP := sim.composes
  have hparameters : ∀ t ∈ spec.parameters.toList, sim.Rendered t :=
    fun t ht => htemplates t (List.mem_append_left _ ht)
  have hresult : ∀ t ∈ spec.resultSelector.toList, sim.Rendered t :=
    fun t ht => htemplates t (List.mem_append_right _ ht)
  refine .bind (hP.eval _) fun effective => .bind (hP.parametersOr _ _ hparameters) fun input =>
    .bind (sim.collect_processes _ ?_) fun outputs => hP.finish _ _ _ _ _ hresult
  rw [runMachines_eq_map, runMachines_eq_map]
  refine List.forall₂_iff_get.mpr ⟨by simp, fun i hi hi' s s' hs => ?_⟩
  simp only [List.get_eq_getElem, List.getElem_mapIdx, List.getElem_map]
  have hchild : sim.Traced → childLabel label' name i = childLabel label name i :=
    fun htraced => by rw [hlabel htraced]
  exact (hruns _ (List.getElem_mem _) _ _ _ _ _ _ hchild hs).inner

end Attempts

/-! ## States -/

theorem kind_processes {st : State} (hst : st.Within sim.Rendered sim.Asked)
    (hinner : ∀ inner ∈ st.kind.scopes, sim.Scopes (inner.run sim.low) (inner.run sim.high))
    (context : Context) {label label' : String} (hlabel : sim.Traced → label' = label)
    (raw : Json) :
    sim.Processes (st.kind.run sim.low st.name context label raw)
      (st.kind.run sim.high st.name context label' raw) := by
  have hP := sim.composes
  obtain ⟨name, comment, kind⟩ := st
  cases kind with
  | pass spec => exact hP.pass _ _ _ hst.1
  | choice spec => exact hP.choice _ _ _ _
  | wait spec => exact hP.wait _ _ _ _
  | succeed spec => exact hP.succeed _ _ _ _
  | fail spec => exact hP.failState _ _ _ _
  | task spec =>
    exact sim.policy_processes rfl hlabel (fun k => hP.taskAttempt _ _ k hst.1 (hst.2 rfl)) _ _
  | map spec processor =>
    have hrun := hinner processor (List.mem_singleton.mpr rfl)
    exact sim.policy_processes rfl hlabel
      (fun k => sim.mapAttempt_processes hrun hlabel hst k) _ _
  | parallel spec branches =>
    exact sim.policy_processes rfl hlabel
      (fun k => sim.parallelAttempt_processes hinner hlabel hst k) _ _

/-! ## Scopes -/

theorem walk_runs {m : Machine}
    (hkind : ∀ st ∈ m.states, ∀ context label label' raw, (sim.Traced → label' = label) →
      sim.Processes (st.kind.run sim.low st.name context label raw)
        (st.kind.run sim.high st.name context label' raw))
    (context : Context) {label label' : String} (hlabel : sim.Traced → label' = label)
    {left left' : Nat} (hle : left ≤ left') (heq : sim.low = sim.high → left = left')
    (current : String) (last : Option String) (document : Json) {s s' : Session}
    (hs : sim.Beside s s') :
    sim.ScopeRuns (m.walk sim.low context label left current last document s)
      (m.walk sim.high context label' left' current last document s') := by
  induction left generalizing left' current last document s s' with
  | zero =>
    rw [Machine.walk_zero]
    rcases sim.low_le_high.lt_or_eq with hlt | hceiling
    · exact .cut rfl (sim.cut_of_ceiling hlt _ rfl rfl) (List.nil_prefix ..)
    · obtain rfl := heq hceiling
      rw [Machine.walk_zero, hceiling]
      exact .same rfl rfl hs fun _ => rfl
  | succ left ih =>
    obtain ⟨left', rfl⟩ : ∃ n, left' = n + 1 := ⟨left' - 1, by omega⟩
    cases hst : m.state? current with
    | none =>
      rw [Machine.walk_of_missing hst, Machine.walk_of_missing hst]
      exact .same rfl rfl hs fun _ => rfl
    | some st =>
      cases hkind st (Machine.mem_of_state? hst) context label label' document hlabel s s' hs with
      | cut hresult hcut =>
        -- However the second run goes on, it has visited this state.
        have hpath : ∃ rest, (m.walk sim.high context label' (left' + 1) current last document
            s').path = current :: rest := Machine.walk_path_of_some hst
        obtain ⟨rest, hpath⟩ := hpath
        rw [Machine.walk_of_error hst hresult]
        refine .cut rfl hcut ?_
        rw [hpath]
        exact ⟨rest, rfl⟩
      | same hresult hsession hlog =>
        have hvisit : ∀ output, sim.Traced →
            Event.visit ⟨current, label', document, output⟩ ::
                (st.kind.run sim.high st.name context label' document s').log =
              Event.visit ⟨current, label, document, output⟩ ::
                (st.kind.run sim.low st.name context label document s).log := by
          intro output htraced
          rw [hlog htraced, hlabel htraced]
        cases ha : (st.kind.run sim.low st.name context label document s).result with
        | error fault =>
          rw [Machine.walk_of_error hst ha, Machine.walk_of_error hst (hresult.trans ha)]
          exact .same rfl rfl hsession (hvisit none)
        | ok step =>
          cases step with
          | finish output =>
            rw [Machine.walk_of_finish hst ha, Machine.walk_of_finish hst (hresult.trans ha)]
            exact .same rfl rfl hsession (hvisit (some output))
          | next target output =>
            rw [Machine.walk_of_next hst ha, Machine.walk_of_next hst (hresult.trans ha)]
            have hleft : sim.low = sim.high → left = left' := by
              intro hceiling
              have := heq hceiling
              omega
            cases ih (by omega) hleft target (some current) output hsession with
            | cut houtput hcut hpath =>
              exact .cut houtput hcut (List.cons_prefix_cons.mpr ⟨rfl, hpath⟩)
            | same houtput hpath hend hrest =>
              refine .same houtput (by simp only [hpath]) hend fun htraced => ?_
              simp only [hvisit (some output) htraced, hrest htraced]

end Simulation

theorem Simulation.scopes_run (sim : Simulation) (m : Machine)
    (hm : ∀ st ∈ m.everyState, st.Within sim.Rendered sim.Asked) :
    sim.Scopes (m.run sim.low) (m.run sim.high) := by
  induction m using Machine.induction with
  | step m ih =>
    intro context label label' input s s' hlabel hs
    rw [Machine.run_eq_walk, Machine.run_eq_walk]
    refine sim.walk_runs ?_ context hlabel sim.low_le_high id _ _ _ hs
    intro st hst context label label' raw hlabel
    refine sim.kind_processes (hm st (Machine.mem_everyState hst)) ?_ context hlabel raw
    intro inner hinner
    exact ih st hst inner hinner fun st' hst' => hm st' (Machine.everyState_subset hst hinner hst')

end StateCheck
