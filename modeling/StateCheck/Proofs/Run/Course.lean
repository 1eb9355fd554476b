import StateCheck.Proofs.Machine.Closed
import StateCheck.Proofs.Run.Policy
import StateCheck.Proofs.Run.Turns
/-!
The courses that runs take.

What a run can log and how it can end, apart from sessions: inner scopes in order (`InOrder`), an
attempt of a Map or Parallel state (`Attempted`), attempts under a policy (`Policed`), a state
(`Stepped`) and a scope (`Walked`). `Machine.walked_run` says that every run of a machine takes such
a course, and `Machine.Ran.induction` proves along the courses what holds of every run.
-/
namespace StateCheck
set_option autoImplicit false

/-- A run of the machine under the label. -/
def Machine.Ran (maxSteps : Nat) (m : Machine) (label : String) (r : ScopeRun) : Prop :=
  ∃ context input s, r = m.run maxSteps context label input s

/-- Every end of the process, with its log, is of the course. -/
def Process.Takes {α : Type} (p : Process α) (course : Except Fault α → Log → Prop) : Prop :=
  ∀ s, course (p s).result (p s).log

namespace Run

/-! ## Inner scopes -/

/-- One inner scope: a fault before it runs, or its run. -/
inductive Inner (Ran : ScopeRun → Prop) : SubRun → Prop
  | unready (fault : Fault) (s : Session) : Inner Ran ⟨.error fault, none, [.fault fault], s⟩
  | ran {r : ScopeRun} : Ran r → Inner Ran (.ofScope r)

/-- Inner scopes in order, counted from an index: their runs, the outputs or the first fault, and
what was logged. -/
inductive InOrder (Ran : Nat → ScopeRun → Prop) :
    Nat → List ScopeRun → Except Fault (List Json) → Log → Prop
  | done (i : Nat) : InOrder Ran i [] (.ok []) []
  | unready (i : Nat) (fault : Fault) : InOrder Ran i [] (.error fault) [.fault fault]
  | failed {i : Nat} {r : ScopeRun} {fault : Fault} {state : String} :
      Ran i r → r.output = .error ⟨fault, state⟩ → InOrder Ran i [r] (.error fault) r.log
  | next {i : Nat} {r : ScopeRun} {v : Json} {rest : List ScopeRun}
      {outputs : Except Fault (List Json)} {log : Log} :
      Ran i r → r.output = .ok v → InOrder Ran (i + 1) rest outputs log →
      InOrder Ran i (r :: rest) (outputs.map (v :: ·)) (r.log ++ log)

theorem inOrder_course (Ran : Nat → ScopeRun → Prop) :
    ∀ (jobs : List (Session → SubRun)) (i : Nat) (s : Session),
      (∀ k job, jobs[k]? = some job → ∀ s, Inner (Ran (i + k)) (job s)) →
      ∃ runs, InOrder Ran i runs (inOrder jobs s).outputs (inOrder jobs s).log ∧
        (inOrder jobs s).paths = runs.map (·.path)
  | [], i, s, _ => ⟨[], .done i, rfl⟩
  | job :: rest, i, s, h => by
      have hrest : ∀ k job', rest[k]? = some job' → ∀ s, Inner (Ran (i + 1 + k)) (job' s) := by
        intro k job' hk s
        have e : i + 1 + k = i + (k + 1) := by omega
        rw [e]
        exact h (k + 1) job' hk s
      have hjob := h 0 job rfl s
      rw [Nat.add_zero] at hjob
      generalize ha : job s = a at hjob
      cases hjob with
      | unready fault t => exact ⟨[], by simp only [inOrder, ha]; exact .unready i fault,
          by simp [inOrder, ha]⟩
      | @ran r hr =>
        cases hr' : r.output with
        | error located =>
          refine ⟨[r], ?_, ?_⟩
          · simp only [inOrder, ha, SubRun.ofScope, hr', Except.mapError]
            exact .failed hr hr'
          · simp [inOrder, ha, SubRun.ofScope, hr', Except.mapError]
        | ok v =>
          obtain ⟨runs, hruns, hpaths⟩ := inOrder_course Ran rest (i + 1) r.session hrest
          refine ⟨r :: runs, ?_, ?_⟩
          · simp only [inOrder, ha, SubRun.ofScope, hr', Except.mapError]
            exact .next hr hr' hruns
          · simp [inOrder, ha, SubRun.ofScope, hr', Except.mapError, hpaths]

/-- An attempt of a state with inner scopes: a fault before them, the fault of one of them, or all
of them and a result. The inner scopes that ran are recorded. -/
inductive Attempted (Ran : Nat → ScopeRun → Prop) (recorded : List (List String) → Bool → Event) :
    Except Fault Json → Log → Prop
  | unready (fault : Fault) : Attempted Ran recorded (.error fault) [.fault fault]
  | failed {runs : List ScopeRun} {fault : Fault} {log : Log} :
      InOrder Ran 0 runs (.error fault) log →
      Attempted Ran recorded (.error fault) (log ++ [recorded (runs.map (·.path)) false])
  | finished {runs : List ScopeRun} {outputs : List Json} {log : Log}
      (result : Except Fault Json) :
      InOrder Ran 0 runs (.ok outputs) log →
      Attempted Ran recorded result
        (log ++ [recorded (runs.map (·.path)) true] ++ Fault.raised result)

section Attempts
variable {Ran : Nat → ScopeRun → Prop} {recorded : List (List String) → Bool → Event}

theorem Attempted.bind {α : Type} {p : Process α} {f : α → Process Json} (hp : p.Plain)
    (hf : ∀ a, (f a).Takes (Attempted Ran recorded)) :
    Process.Takes (p >>= f) (Attempted Ran recorded) := by
  intro s
  have hlog := hp s
  cases h : (p s).result with
  | error fault =>
    rw [Process.bind_of_error h, hlog, h]
    exact .unready fault
  | ok a =>
    have hnil : (p s).log = [] := by rw [hlog, h]; rfl
    rw [Process.bind_of_ok h, Outcome.after, hnil]
    exact hf a _

theorem Attempted.collect {jobs : List (Session → SubRun)} {f : List Json → Process Json}
    (hjobs : ∀ k job, jobs[k]? = some job → ∀ s, Inner (Ran k) (job s))
    (hf : ∀ outputs, (f outputs).Plain) :
    Process.Takes (Run.collect jobs recorded >>= f) (Attempted Ran recorded) := by
  intro s
  obtain ⟨runs, hruns, hpaths⟩ := inOrder_course Ran jobs 0 s (by simpa using hjobs)
  have hlog : (Run.collect jobs recorded s).log =
      (inOrder jobs s).log ++ [recorded (runs.map (·.path)) (inOrder jobs s).outputs.isOk] := by
    rw [← hpaths]
    rfl
  cases h : (inOrder jobs s).outputs with
  | error fault =>
    rw [Process.bind_of_error (p := Run.collect jobs recorded) h, hlog, h]
    rw [h] at hruns
    exact .failed hruns
  | ok outputs =>
    rw [Process.bind_of_ok (p := Run.collect jobs recorded) h, Outcome.after, hlog, h, hf]
    rw [h] at hruns
    exact .finished _ hruns

end Attempts

theorem iteration_inner (name : String) (spec : MapSpec) (maxSteps : Nat) (processor : Machine)
    (context : Context) (label : String) (effective : Json) (retryCount index : Nat) (item : Json)
    (s : Session) :
    Inner (processor.Ran maxSteps (childLabel label name index))
      (iteration name spec (processor.run maxSteps) context label effective retryCount index item
        s) := by
  have hplain : (itemInput name spec context effective retryCount index item).Plain :=
    Process.plain_composes.itemInput name context effective retryCount index item fun _ _ => trivial
  cases h : (itemInput name spec context effective retryCount index item s).result with
  | error fault =>
    rw [iteration_of_error h, hplain, h]
    exact .unready fault _
  | ok document =>
    rw [iteration_of_ok h]
    exact .ran ⟨_, _, _, rfl⟩

theorem mapAttempt_takes (name : String) (spec : MapSpec) (maxSteps : Nat) (processor : Machine)
    (context : Context) (label : String) (raw : Json) (retryCount : Nat) :
    (mapAttempt name spec (processor.run maxSteps) context label raw retryCount).Takes
      (Attempted (fun i => processor.Ran maxSteps (childLabel label name i))
        fun paths completed => .map ⟨name, paths⟩ completed) := by
  have hplain := Process.plain_composes
  rw [mapAttempt_eq]
  refine .bind (hplain.eval _) fun effective => .bind (hplain.mapItems _ _ fun _ => trivial)
    fun items => .bind (hplain.iterationInputs _ _ _ fun _ _ => trivial) fun inputs =>
    .collect ?_ fun outputs =>
      hplain.concludeMap _ _ _ _ _ _ (fun _ _ => trivial) fun _ _ => trivial
  intro k job hk s
  rw [iterationJobs, List.getElem?_map, List.getElem?_mapIdx, Option.map_map] at hk
  obtain ⟨item, -, rfl⟩ := Option.map_eq_some_iff.mp hk
  exact iteration_inner _ _ _ _ _ _ _ _ _ _ _

theorem parallelAttempt_takes (name : String) (spec : ParallelSpec) (maxSteps : Nat)
    (branches : List Machine) (context : Context) (label : String) (raw : Json)
    (retryCount : Nat) :
    (parallelAttempt name spec (runMachines maxSteps branches) context label raw retryCount).Takes
      (Attempted
        (fun i r => ∃ b, branches[i]? = some b ∧ b.Ran maxSteps (childLabel label name i) r)
        fun paths completed => .parallel ⟨name, paths⟩ completed) := by
  have hplain := Process.plain_composes
  refine .bind (hplain.eval _) fun effective =>
    .bind (hplain.parametersOr _ _ fun _ _ => trivial) fun input =>
    .collect ?_ fun outputs => hplain.finish _ _ _ _ _ fun _ _ => trivial
  intro k job hk s
  rw [runMachines_eq_map, List.getElem?_mapIdx, List.getElem?_map, Option.map_map] at hk
  obtain ⟨b, hb, rfl⟩ := Option.map_eq_some_iff.mp hk
  exact .ran ⟨b, hb, _, _, _, rfl⟩

/-! ## Policies -/

/-- The attempts under a policy, up to the one that decides. -/
inductive Policed (p : Policy) (Tried : Except Fault Json → Log → Prop) :
    Except Fault Step → Log → Prop
  | succeeded {output : Json} {log : Log} :
      Tried (.ok output) log → Policed p Tried (.ok (.along p.transition output)) log
  | stood {fault : Fault} {log : Log} :
      Tried (.error fault) log → Policed p Tried (.error fault) log
  | caught {fault : Fault} {log : Log} {c : Catcher} (document : Json) :
      Tried (.error fault) log → fault.catchable = true → c ∈ p.catchers →
      Policed p Tried (.ok (.next c.next document)) log
  | overruled {fault fatal : Fault} {log : Log} :
      Tried (.error fault) log → fault.catchable = true → fatal.catchable = false →
      Policed p Tried (.error fatal) (log ++ [.fault fatal])
  | again {fault : Fault} {retrier : Retrier} {attempt : Nat} {log rest : Log}
      {result : Except Fault Step} :
      Tried (.error fault) log → fault.catchable = true → Policed p Tried result rest →
      Policed p Tried result (log ++ .retry (p.retryRecord fault retrier attempt) :: rest)

section Policies
variable {p : Policy} (Tried : Except Fault Json → Log → Prop)

theorem run_policed {attempt : Nat → Process Json} (h : ∀ k, (attempt k).Takes Tried)
    (retryCount : Nat) (usage : Usage) :
    (p.run attempt retryCount usage).Takes (Policed p Tried) := by
  have htried : ∀ k s result, (attempt k s).result = result → Tried result (attempt k s).log := by
    intro k s result hresult
    rw [← hresult]
    exact h k s
  refine Policy.run_induction (Q := fun _ o => Policed p Tried o.result o.log) ?_ ?_ ?_ ?_ ?_
    retryCount usage
  · exact fun k s output hresult => .succeeded (htried k s _ hresult)
  · exact fun k s fault hresult => .stood (htried k s _ hresult)
  · exact fun k s fault c document hresult hcatch hc =>
      .caught document (htried k s _ hresult) hcatch hc
  · exact fun k s fault fatal hresult hcatch hfatal =>
      .overruled (htried k s _ hresult) hcatch hfatal
  · intro k s fault r number rest hresult hcatch hrest
    show Policed p Tried rest.result (_ ++ rest.log)
    rw [List.append_assoc]
    exact .again (htried k s _ hresult) hcatch hrest

end Policies

/-! ## States -/

/-- Whether the state may finish its scope. -/
def CanFinish (st : State) : Prop :=
  st.kind.transition? = some .finish ∨ ∃ spec, st.kind = .succeed spec

/-- Whether the state may end with the step: it moves to one of its successors, or finishes its
scope. -/
def Allows (st : State) : Step → Prop
  | .next target _ => target ∈ st.successors
  | .finish _ => CanFinish st

def policyOf (st : State) (transition : Transition) (maxSteps : Nat) (label : String)
    (raw : Json) : Policy :=
  { state := st.name, scope := label, raw, catchers := st.kind.catchers, transition, maxSteps }

/-- One visit of a state: without inner scopes and policy, or under the policy of its kind. -/
inductive Stepped (maxSteps : Nat) (label : String) : State → Except Fault Step → Log → Prop
  | simple {st : State} {result : Except Fault Step} :
      (∀ step, result = .ok step → Allows st step) →
      Stepped maxSteps label st result (Fault.raised result)
  | task {name : String} {comment : Option String} {spec : TaskSpec} {result : Except Fault Step}
      {log : Log} (raw : Json) :
      Policed (policyOf ⟨name, comment, .task spec⟩ spec.transition maxSteps label raw)
        (fun result log => log = Fault.raised result) result log →
      Stepped maxSteps label ⟨name, comment, .task spec⟩ result log
  | map {name : String} {comment : Option String} {spec : MapSpec} {processor : Machine}
      {result : Except Fault Step} {log : Log} (raw : Json) :
      Policed (policyOf ⟨name, comment, .map spec processor⟩ spec.transition maxSteps label raw)
        (Attempted (fun i => processor.Ran maxSteps (childLabel label name i))
          fun paths completed => .map ⟨name, paths⟩ completed) result log →
      Stepped maxSteps label ⟨name, comment, .map spec processor⟩ result log
  | parallel {name : String} {comment : Option String} {spec : ParallelSpec}
      {branches : List Machine} {result : Except Fault Step} {log : Log} (raw : Json) :
      Policed (policyOf ⟨name, comment, .parallel spec branches⟩ spec.transition maxSteps label raw)
        (Attempted
          (fun i r => ∃ b, branches[i]? = some b ∧ b.Ran maxSteps (childLabel label name i) r)
          fun paths completed => .parallel ⟨name, paths⟩ completed) result log →
      Stepped maxSteps label ⟨name, comment, .parallel spec branches⟩ result log

theorem allows_along {st : State} {transition : Transition} (output : Json)
    (h : st.kind.transition? = some transition) : Allows st (.along transition output) := by
  cases transition with
  | next target =>
    refine List.mem_append_left _ (List.mem_append_left _ ?_)
    rw [State.nextTarget, h]
    exact List.mem_singleton.mpr rfl
  | finish => exact .inl h

theorem mem_firstMatch {docs : Documents} {rules : List ChoiceRule} {target : String}
    (h : firstMatch docs rules = .ok (some target)) : target ∈ rules.map (·.next) := by
  induction rules with
  | nil => cases h
  | cons rule rest ih =>
    rw [List.map_cons, List.mem_cons]
    rw [firstMatch] at h
    cases hc : rule.condition.eval docs with
    | error e => rw [hc] at h; cases h
    | ok b =>
      rw [hc] at h
      cases b with
      | true => cases h; exact .inl rfl
      | false => exact .inr (ih h)

theorem simple_stepped {maxSteps : Nat} {label : String} {st : State} {p : Process Step}
    (hplain : p.Plain) (hgives : p.Gives (Allows st)) : p.Takes (Stepped maxSteps label st) := by
  intro s
  rw [hplain s]
  exact .simple (hgives s)

theorem choice_gives (name : String) (comment : Option String) (spec : ChoiceSpec)
    (context : Context) (raw : Json) :
    (choice name spec context raw).Gives (Allows ⟨name, comment, .choice spec⟩) := by
  refine Process.gives_bind fun effective => Process.gives_bind_eval fun matched hmatch => ?_
  cases hnext : matched.or spec.default with
  | none => exact Process.gives_fail _
  | some next =>
    have hmem : next ∈ State.successors ⟨name, comment, .choice spec⟩ := by
      refine List.mem_append_left _ (List.mem_append_right _ (List.mem_append.mpr ?_))
      cases matched with
      | none => exact .inr (by simpa using hnext)
      | some target =>
        obtain rfl : target = next := by simpa using hnext
        exact .inl (mem_firstMatch hmatch)
    refine Process.gives_bind fun output => Process.gives_pure ?_
    exact hmem

theorem kind_stepped (maxSteps : Nat) (label : String) (context : Context) (raw : Json) :
    (st : State) →
      (st.kind.run maxSteps st.name context label raw).Takes (Stepped maxSteps label st)
  | ⟨name, _, .pass _⟩ =>
      simple_stepped (Process.plain_composes.pass name context raw fun _ _ => trivial) <|
        Process.gives_bind fun _ => Process.gives_bind fun _ => Process.gives_bind fun _ =>
          Process.gives_bind fun _ => Process.gives_pure (allows_along _ rfl)
  | ⟨name, comment, .choice spec⟩ =>
      simple_stepped (Process.plain_composes.choice name spec context raw)
        (choice_gives name comment spec context raw)
  | ⟨name, _, .wait spec⟩ =>
      simple_stepped (Process.plain_composes.wait name spec context raw) <|
        Process.gives_bind fun _ => Process.gives_bind fun _ => Process.gives_bind fun _ =>
          Process.gives_pure (allows_along _ rfl)
  | ⟨name, _, .succeed spec⟩ =>
      simple_stepped (Process.plain_composes.succeed name spec context raw) <|
        Process.gives_bind fun _ => Process.gives_bind fun _ =>
          Process.gives_pure (.inr ⟨spec, rfl⟩)
  | ⟨name, _, .fail spec⟩ =>
      simple_stepped (Process.plain_composes.failState name spec context raw) <|
        Process.gives_bind fun _ => Process.gives_bind fun _ => Process.gives_fail _
  | ⟨_, _, .task _⟩ => fun s =>
      .task raw <| run_policed (fun result log => log = Fault.raised result)
        (fun k => Process.plain_composes.taskAttempt context raw k (fun _ _ => trivial) trivial)
        _ _ s
  | ⟨name, _, .map spec processor⟩ => fun s =>
      .map raw <| run_policed _
        (fun k => mapAttempt_takes name spec maxSteps processor context label raw k) _ _ s
  | ⟨name, _, .parallel spec branches⟩ => fun s =>
      .parallel raw <| run_policed _
        (fun k => parallelAttempt_takes name spec maxSteps branches context label raw k) _ _ s

theorem Policed.allows {st : State} {transition : Transition} {maxSteps : Nat} {label : String}
    {raw : Json} {Tried : Except Fault Json → Log → Prop} {result : Except Fault Step} {log : Log}
    (htransition : st.kind.transition? = some transition)
    (h : Policed (policyOf st transition maxSteps label raw) Tried result log) :
    ∀ step, result = .ok step → Allows st step := by
  induction h with
  | @succeeded output log _ =>
    rintro step hstep
    cases hstep
    exact allows_along output htransition
  | stood _ => exact nofun
  | @caught fault log c document _ _ hc =>
    rintro step hstep
    cases hstep
    exact List.mem_append_right _ (List.mem_map.mpr ⟨c, hc, rfl⟩)
  | overruled _ _ _ => exact nofun
  | again _ _ _ ih => exact ih

theorem Stepped.allows {maxSteps : Nat} {label : String} {st : State} {step : Step} {log : Log}
    (h : Stepped maxSteps label st (.ok step) log) : Allows st step := by
  generalize hresult : Except.ok step = result at h
  cases h with
  | simple h => exact h step hresult.symm
  | task raw h => exact h.allows rfl step hresult.symm
  | map raw h => exact h.allows rfl step hresult.symm
  | parallel raw h => exact h.allows rfl step hresult.symm

/-! ## Scopes -/

/-- A walk through a scope, with the steps left below the ceiling: how it ends, the states that it
visits and what it logs. -/
inductive Walked (m : Machine) (maxSteps : Nat) (label : String) :
    Nat → String → Option String → Json → Except Located Json → List String → Log → Prop
  | ceiling (current : String) (last : Option String) (document : Json) :
      Walked m maxSteps label 0 current last document
        (.error ⟨.tooManySteps maxSteps, last.getD current⟩) [] [.fault (.tooManySteps maxSteps)]
  | lost (left : Nat) {current : String} (last : Option String) (document : Json) :
      m.state? current = none →
      Walked m maxSteps label (left + 1) current last document
        (.error ⟨.missingState current, current⟩) []
        [.lost current, .fault (.missingState current)]
  | failed (left : Nat) {current : String} (last : Option String) (document : Json) {st : State}
      {fault : Fault} {log : Log} :
      m.state? current = some st → Stepped maxSteps label st (.error fault) log →
      Walked m maxSteps label (left + 1) current last document (.error ⟨fault, current⟩) [current]
        (.visit ⟨current, label, document, none⟩ :: log)
  | finished (left : Nat) {current : String} (last : Option String) (document : Json) {st : State}
      {output : Json} {log : Log} :
      m.state? current = some st → Stepped maxSteps label st (.ok (.finish output)) log →
      Walked m maxSteps label (left + 1) current last document (.ok output) [current]
        (.visit ⟨current, label, document, some output⟩ :: log)
  | moved {left : Nat} {current : String} (last : Option String) (document : Json) {st : State}
      {target : String} {output : Json} {log rest : Log} {result : Except Located Json}
      {path : List String} :
      m.state? current = some st → Stepped maxSteps label st (.ok (.next target output)) log →
      Walked m maxSteps label left target (some current) output result path rest →
      Walked m maxSteps label (left + 1) current last document result (current :: path)
        (.visit ⟨current, label, document, some output⟩ :: log ++ rest)

theorem walk_walked (m : Machine) (maxSteps : Nat) (context : Context) (label : String)
    (left : Nat) (current : String) (last : Option String) (document : Json) (s : Session) :
    let r := m.walk maxSteps context label left current last document s
    Walked m maxSteps label left current last document r.output r.path r.log := by
  induction left generalizing current last document s with
  | zero =>
    rw [Machine.walk_zero]
    exact .ceiling current last document
  | succ left ih =>
    cases hst : m.state? current with
    | none =>
      rw [Machine.walk_of_missing hst]
      exact .lost left last document hst
    | some st =>
      have hstepped := kind_stepped maxSteps label context document st s
      cases hresult : (st.kind.run maxSteps st.name context label document s).result with
      | error fault =>
        rw [hresult] at hstepped
        rw [Machine.walk_of_error hst hresult]
        exact .failed left last document hst hstepped
      | ok step =>
        rw [hresult] at hstepped
        cases step with
        | finish output =>
          rw [Machine.walk_of_finish hst hresult]
          exact .finished left last document hst hstepped
        | next target output =>
          rw [Machine.walk_of_next hst hresult]
          exact .moved last document hst hstepped (ih _ _ _ _)

/-! ## What logs have in common -/

/-- A property that a log has when it is put together from logs that have it. -/
structure Joins (I : Log → Prop) : Prop where
  nil : I []
  append {a b : Log} : I a → I b → I (a ++ b)

section Joins
variable {I : Log → Prop} (hI : Joins I) (hfault : ∀ fault, I [.fault fault])
include hI hfault

theorem Joins.raised {α : Type} (result : Except Fault α) : I (Fault.raised result) := by
  cases result with
  | ok a => exact hI.nil
  | error fault => exact hfault fault

theorem Joins.inOrder {Ran : Nat → ScopeRun → Prop} {i : Nat} {runs : List ScopeRun}
    {outputs : Except Fault (List Json)} {log : Log} (hran : ∀ i r, Ran i r → I r.log)
    (h : InOrder Ran i runs outputs log) : I log := by
  induction h with
  | done i => exact hI.nil
  | unready i fault => exact hfault fault
  | failed hr _ => exact hran _ _ hr
  | next hr _ _ ih => exact hI.append (hran _ _ hr) ih

theorem Joins.attempted {Ran : Nat → ScopeRun → Prop} {recorded : List (List String) → Bool → Event}
    {result : Except Fault Json} {log : Log}
    (hinner : ∀ runs outputs log, InOrder Ran 0 runs outputs log →
      I (log ++ [recorded (runs.map (·.path)) outputs.isOk]))
    (h : Attempted Ran recorded result log) : I log := by
  cases h with
  | unready fault => exact hfault fault
  | failed hruns => exact hinner _ _ _ hruns
  | finished result hruns => exact hI.append (hinner _ _ _ hruns) (hI.raised hfault result)

theorem Joins.policed {p : Policy} {Tried : Except Fault Json → Log → Prop}
    {result : Except Fault Step} {log : Log} (hretry : ∀ record, I [.retry record])
    (htried : ∀ result log, Tried result log → I log) (h : Policed p Tried result log) : I log := by
  induction h with
  | succeeded h => exact htried _ _ h
  | stood h => exact htried _ _ h
  | caught document h _ _ => exact htried _ _ h
  | overruled h _ _ => exact hI.append (htried _ _ h) (hfault _)
  | again h _ _ ih => exact hI.append (htried _ _ h) (hI.append (hretry _) ih)

theorem Joins.stepped {maxSteps : Nat} {label : String} {st : State} {result : Except Fault Step}
    {log : Log} (hretry : ∀ record, I [.retry record])
    (hmap : ∀ name comment spec processor, st = ⟨name, comment, .map spec processor⟩ →
      ∀ runs outputs log,
        InOrder (fun i => processor.Ran maxSteps (childLabel label name i)) 0 runs outputs log →
        I (log ++ [.map ⟨name, runs.map (·.path)⟩ outputs.isOk]))
    (hparallel : ∀ name comment spec branches, st = ⟨name, comment, .parallel spec branches⟩ →
      ∀ runs outputs log,
        InOrder (fun i r => ∃ b, branches[i]? = some b ∧ b.Ran maxSteps (childLabel label name i) r)
          0 runs outputs log →
        I (log ++ [.parallel ⟨name, runs.map (·.path)⟩ outputs.isOk]))
    (h : Stepped maxSteps label st result log) : I log := by
  cases h with
  | simple _ => exact hI.raised hfault result
  | task raw h =>
    refine hI.policed hfault hretry (fun result log hlog => ?_) h
    rw [hlog]
    exact hI.raised hfault result
  | map raw h =>
    exact hI.policed hfault hretry
      (fun _ _ => hI.attempted hfault (hmap _ _ _ _ rfl)) h
  | parallel raw h =>
    exact hI.policed hfault hretry
      (fun _ _ => hI.attempted hfault (hparallel _ _ _ _ rfl)) h

theorem Joins.walked {m : Machine} {maxSteps left : Nat} {label current : String}
    {last : Option String} {document : Json} {result : Except Located Json} {path : List String}
    {log : Log}
    (hvisit : ∀ name document output, I [.visit ⟨name, label, document, output⟩])
    (hlost : ∀ target, (target = current ∨ ∃ st ∈ m.states, target ∈ st.successors) →
      m.state? target = none → I [.lost target])
    (hstepped : ∀ st ∈ m.states, ∀ result log, Stepped maxSteps label st result log → I log)
    (h : Walked m maxSteps label left current last document result path log) : I log := by
  induction h with
  | ceiling current last document => exact hfault _
  | lost left last document hst => exact hI.append (hlost _ (.inl rfl) hst) (hfault _)
  | failed left last document hst hlog =>
    exact hI.append (hvisit _ _ _) (hstepped _ (Machine.mem_of_state? hst) _ _ hlog)
  | finished left last document hst hlog =>
    exact hI.append (hvisit _ _ _) (hstepped _ (Machine.mem_of_state? hst) _ _ hlog)
  | @moved left current last document st target output log rest result path hst hlog _ ih =>
    have hmem := Machine.mem_of_state? hst
    have htarget : target ∈ st.successors := hlog.allows
    refine hI.append (hI.append (hvisit _ _ _) (hstepped st hmem _ _ hlog)) (ih ?_)
    -- The rest of the walk starts at a successor of this state.
    rintro name (rfl | hsuccessor) hnone
    · exact hlost name (.inr ⟨st, hmem, htarget⟩) hnone
    · exact hlost name (.inr hsuccessor) hnone

end Joins

theorem joins_forall (Q : Event → Prop) : Joins fun log => ∀ e ∈ log, Q e where
  nil := by simp
  append ha hb := by
    intro e he
    rcases List.mem_append.mp he with he | he
    · exact ha e he
    · exact hb e he

end Run

theorem Machine.walked_run (m : Machine) (maxSteps : Nat) (context : Context) (label : String)
    (input : Json) (s : Session) :
    let r := m.run maxSteps context label input s
    Run.Walked m maxSteps label maxSteps m.startAt none input r.output r.path r.log := by
  rw [m.run_eq_walk]
  exact Run.walk_walked m maxSteps context label maxSteps m.startAt none input s

theorem Machine.execution_walked (m : Machine) (input : Json) (engine : MockEngine)
    (options : ExecutionOptions) :
    let r := m.execution input engine options
    Run.Walked m options.maxSteps "" options.maxSteps m.startAt none input r.output r.path r.log :=
  m.walked_run _ _ _ _ _

/-- What a walk has when all runs of inner machines have it, every run has. -/
theorem Machine.Ran.induction {maxSteps : Nat} {P : Machine → String → ScopeRun → Prop}
    (step : ∀ (m : Machine) (label : String) (r : ScopeRun) (document : Json),
      (∀ st ∈ m.states, ∀ inner ∈ st.kind.scopes, ∀ label r, inner.Ran maxSteps label r →
        P inner label r) →
      Run.Walked m maxSteps label maxSteps m.startAt none document r.output r.path r.log →
      P m label r)
    {m : Machine} {label : String} {r : ScopeRun} (h : m.Ran maxSteps label r) : P m label r := by
  induction m using Machine.induction generalizing label r with
  | step m ih =>
    obtain ⟨context, input, s, rfl⟩ := h
    exact step m label _ input (fun st hst inner hinner label r hr => ih st hst inner hinner hr)
      (m.walked_run maxSteps context label input s)

theorem Machine.execution_ran (m : Machine) (input : Json) (engine : MockEngine)
    (options : ExecutionOptions) :
    m.Ran options.maxSteps "" (m.execution input engine options) :=
  ⟨_, _, _, rfl⟩

end StateCheck
