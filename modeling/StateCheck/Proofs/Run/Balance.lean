import StateCheck.Proofs.Run.Fatal
import StateCheck.Proofs.Run.Requests
/-!
The balance of tries and calls.

Where all states of a name are tasks, every visit and every retry of the name is one try, and every
try takes one call of the mock engine. Only a request that cannot be built takes none, and that ends
the execution at once (`Machine.execute_settles`). `Run.Settled` is that balance for any part of a
run, with the fault that ends the part; parts put together settle when the first goes on.
-/
namespace StateCheck
set_option autoImplicit false

/-! ## Tries -/

namespace Log

/-- The visits and retries of the states of a name. -/
def tries (name : String) (log : Log) : Nat :=
  log.visits.countP (·.state == name) + log.retries.countP (·.state == name)

variable {name : String}

theorem tries_append (a b : Log) : tries name (a ++ b) = tries name a + tries name b := by
  simp only [tries, visits_append, retries_append, List.countP_append]
  omega

theorem tries_visit (v : StateExecution) (log : Log) :
    tries name (.visit v :: log) = (if v.state = name then 1 else 0) + tries name log := by
  have hvisits : visits (.visit v :: log) = v :: visits log := rfl
  have hretries : retries (.visit v :: log) = retries log := rfl
  rw [tries, hvisits, hretries, List.countP_cons, tries]
  by_cases h : v.state = name
  · simp only [h, beq_self_eq_true, if_true]
    omega
  · have hne : (v.state == name) = false := by simpa using h
    simp only [hne, if_neg h, Bool.false_eq_true, if_false]
    omega

theorem tries_retry (r : RetryRecord) :
    tries name [.retry r] = if r.state = name then 1 else 0 := by
  have hvisits : visits [.retry r] = [] := rfl
  have hretries : retries [.retry r] = [r] := rfl
  rw [tries, hvisits, hretries, List.countP_nil, List.countP_singleton]
  by_cases h : r.state = name
  · simp [h]
  · simp [h]

theorem tries_of_quiet {log : Log} (h : ∀ e ∈ log, e.Quiet) : tries name log = 0 := by
  obtain ⟨hretries, hvisits⟩ := nothing_of_quiet h
  rw [tries, hretries, hvisits]
  rfl

theorem tries_raised {α : Type} (result : Except Fault α) :
    tries name (Fault.raised result) = 0 := by
  cases result <;> rfl

end Log

namespace Run

/-- Whose tries are counted: the name, all states of the machine, and the context in which it is
executed. -/
structure Account where
  name : String
  states : List State
  context : Context

namespace Account
variable (acct : Account)

def calls (s : Session) : Nat := s.engine.callCount acct.name

/-- The contexts of the execution and of iterations in it. -/
def Inside (context : Context) : Prop := ∃ item, context = { acct.context with mapItem := item }

/-- The fault is that of the request of a task of the name, on the input of the last visit. -/
def Refused (fault : Fault) (log : Log) (s : Session) : Prop :=
  fault.catchable = false ∧ ∃ comment spec scope raw context retryCount before,
    (⟨acct.name, comment, .task spec⟩ : State) ∈ acct.states ∧ acct.Inside context ∧
    log.visits.getLast? = some ⟨acct.name, scope, raw, none⟩ ∧
    (taskRequest acct.name spec context raw retryCount before).result = .error fault ∧
    (taskRequest acct.name spec context raw retryCount before).session = s

/-- From one session to another there are as many calls as tries; or one less, and a refused request
is the end. -/
def Settled (fault? : Option Fault) (s : Session) (log : Log) (s' : Session) : Prop :=
  log.tries acct.name + acct.calls s = acct.calls s' ∨
    log.tries acct.name + acct.calls s = acct.calls s' + 1 ∧
      ∃ fault, fault? = some fault ∧ acct.Refused fault log s'

variable {acct : Account}

theorem Refused.append {fault : Fault} {log : Log} {s : Session} (a : Log)
    (h : acct.Refused fault log s) : acct.Refused fault (a ++ log) s := by
  obtain ⟨hfatal, comment, spec, scope, raw, context, retryCount, before, hst, hcontext, hlast,
    hrequest⟩ := h
  refine ⟨hfatal, comment, spec, scope, raw, context, retryCount, before, hst, hcontext, ?_,
    hrequest⟩
  rw [Log.visits_append, List.getLast?_append, hlast]
  rfl

theorem Settled.of_silent {fault? : Option Fault} {s s' : Session} {log : Log}
    (htries : log.tries acct.name = 0) (hcalls : acct.calls s' = acct.calls s) :
    acct.Settled fault? s log s' := by
  left
  omega

theorem Settled.append {x y : Option Fault} {s s₁ s₂ : Session} {a b : Log}
    (ha : acct.Settled x s a s₁) (hx : ∀ fault, x = some fault → fault.catchable = true)
    (hb : acct.Settled y s₁ b s₂) : acct.Settled y s (a ++ b) s₂ := by
  rcases ha with ha | ⟨-, fault, hfault, hfatal, -⟩
  · rcases hb with hb | ⟨hb, fault, hfault, hrefused⟩
    · left
      rw [Log.tries_append]
      omega
    · refine .inr ⟨?_, fault, hfault, hrefused.append a⟩
      rw [Log.tries_append]
      omega
  · rw [hx fault hfault] at hfatal
    cases hfatal

theorem Settled.go_on {y : Option Fault} {s s₁ s₂ : Session} {a b : Log}
    (ha : acct.Settled none s a s₁) (hb : acct.Settled y s₁ b s₂) :
    acct.Settled y s (a ++ b) s₂ :=
  ha.append nofun hb

/-- A part that ends in a fault that can be caught has not ended the run. -/
theorem Settled.caught {fault : Fault} {s s' : Session} {log : Log}
    (h : acct.Settled (some fault) s log s') (hcatch : fault.catchable = true) :
    acct.Settled none s log s' := by
  rw [← List.append_nil log]
  refine h.append ?_ (.of_silent rfl rfl)
  rintro _ ⟨rfl⟩
  exact hcatch

/-- Quiet events may follow, also where the part has ended. -/
theorem Settled.record {x : Option Fault} {s s' : Session} {log : Log} {e : Event}
    (h : acct.Settled x s log s') (he : e.Quiet) : acct.Settled x s (log ++ [e]) s' := by
  have hquiet : ∀ e' ∈ [e], e'.Quiet := by simpa using he
  have htries : Log.tries acct.name (log ++ [e]) = log.tries acct.name := by
    rw [Log.tries_append, Log.tries_of_quiet hquiet, Nat.add_zero]
  have hvisits : Log.visits (log ++ [e]) = log.visits := by
    rw [Log.visits_append, (Log.nothing_of_quiet hquiet).2, List.append_nil]
  unfold Settled Refused at h ⊢
  rw [htries, hvisits]
  exact h

end Account

section Balance
variable (acct : Account)

/-! ## Processes -/

def Settles {α : Type} (p : Process α) : Prop :=
  ∀ s, acct.Settled (Fault.of? (p s).result) s (p s).log (p s).session

variable {acct : Account}

theorem Settles.bind {α β : Type} {p : Process α} {f : α → Process β} (hp : Settles acct p)
    (hf : ∀ a, Settles acct (f a)) : Settles acct (p >>= f) := by
  intro s
  have hfirst := hp s
  cases h : (p s).result with
  | error fault =>
    rw [h] at hfirst
    rw [Process.bind_of_error h]
    exact hfirst
  | ok a =>
    rw [h] at hfirst
    rw [Process.bind_of_ok h]
    exact hfirst.go_on (hf a _)

theorem settles_composes : Process.Composes (Settles acct) (fun _ => True)
    fun name => name ≠ acct.name where
  pure _ _ := .of_silent rfl rfl
  fail _ _ := .of_silent rfl rfl
  draw docs template _ := by
    intro s
    have hoffline : (Process.draw (Template.render docs template)).Offline :=
      Process.offline_composes.draw docs trivial
    refine .of_silent ?_ ?_
    · rw [Process.plain_draw, Log.tries_raised]
    · rw [Account.calls, hoffline, Account.calls]
  call input name hname := by
    intro s
    exact .of_silent rfl (s.engine.callCount_resolve_of_ne (Ne.symm hname) input)
  bind := Settles.bind

/-! ## States of other names -/

theorem policy_settles {p : Policy} (hp : p.state ≠ acct.name) {attempt : Nat → Process Json}
    (h : ∀ k, Settles acct (attempt k)) (retryCount : Nat) (usage : Usage) :
    Settles acct (p.run attempt retryCount usage) := by
  have hfault : ∀ k s fault, (attempt k s).result = .error fault →
      acct.Settled (some fault) s (attempt k s).log (attempt k s).session := by
    intro k s fault hresult
    have hattempt := h k s
    rw [hresult] at hattempt
    exact hattempt
  refine Policy.run_induction
    (Q := fun s o => acct.Settled (Fault.of? o.result) s o.log o.session) ?_ ?_ ?_ ?_ ?_
    retryCount usage
  · intro k s output hresult
    have hattempt := h k s
    rw [hresult] at hattempt
    exact hattempt
  · exact hfault
  · exact fun k s fault c document hresult hcatch _ => (hfault k s fault hresult).caught hcatch
  · intro k s fault fatal hresult hcatch _
    exact ((hfault k s fault hresult).caught hcatch).go_on (.of_silent rfl rfl)
  · intro k s fault r number rest hresult hcatch hrest
    have hretry : Log.tries acct.name [.retry (p.retryRecord fault r number)] = 0 := by
      rw [Log.tries_retry]
      exact if_neg hp
    have hattempt := (hfault k s fault hresult).caught hcatch
    exact (hattempt.go_on (.of_silent hretry rfl)).go_on hrest

theorem inOrder_settles {jobs : List (Session → SubRun)}
    (h : ∀ job ∈ jobs, ∀ s,
      acct.Settled (Fault.of? (job s).output) s (job s).log (job s).session) (s : Session) :
    acct.Settled (Fault.of? (inOrder jobs s).outputs) s (inOrder jobs s).log
      (inOrder jobs s).session := by
  induction jobs generalizing s with
  | nil => exact .of_silent rfl rfl
  | cons job rest ih =>
    have hfirst := h job (List.mem_cons_self ..) s
    cases houtput : (job s).output with
    | error fault =>
      rw [houtput] at hfirst
      rw [inOrder_of_error houtput]
      exact hfirst
    | ok v =>
      rw [houtput] at hfirst
      rw [inOrder_of_ok houtput]
      have hrest := ih (fun job hjob => h job (List.mem_cons_of_mem _ hjob)) (job s).session
      have hsame : ∀ outputs : Except Fault (List Json),
          Fault.of? (outputs.map (v :: ·)) = Fault.of? outputs := by
        intro outputs
        cases outputs <;> rfl
      rw [hsame]
      exact hfirst.go_on hrest

theorem collect_settles {jobs : List (Session → SubRun)}
    (h : ∀ job ∈ jobs, ∀ s,
      acct.Settled (Fault.of? (job s).output) s (job s).log (job s).session)
    {recorded : List (List String) → Bool → Event}
    (hquiet : ∀ paths completed, (recorded paths completed).Quiet) :
    Settles acct (collect jobs recorded) :=
  fun s => (inOrder_settles h s).record (hquiet _ _)

def ScopeSettles (acct : Account) (run : ScopeRunner) : Prop :=
  ∀ context label input s, acct.Inside context →
    let r := run context label input s
    acct.Settled (Fault.of? (r.output.mapError (·.fault))) s r.log r.session

section Attempts
variable {context : Context} (hcontext : acct.Inside context) {name : String}
  (hname : name ≠ acct.name) (label : String) (raw : Json) (retryCount : Nat)
include hcontext hname

omit hname in
theorem iteration_settles {run : ScopeRunner} (hrun : ScopeSettles acct run) (spec : MapSpec)
    (effective : Json) (index : Nat) (item : Json) (s : Session) :
    let a := iteration name spec run context label effective retryCount index item s
    acct.Settled (Fault.of? a.output) s a.log a.session := by
  have hinside : acct.Inside (context.withMapItem index item) := by
    obtain ⟨_, rfl⟩ := hcontext
    exact ⟨some (index, item), rfl⟩
  have hinput : Settles acct (itemInput name spec context effective retryCount index item) :=
    settles_composes.itemInput _ _ _ _ _ _ fun _ _ => trivial
  have hplain : (itemInput name spec context effective retryCount index item).Plain :=
    Process.plain_composes.itemInput _ _ _ _ _ _ fun _ _ => trivial
  have hsettled := hinput s
  intro a
  cases h : (itemInput name spec context effective retryCount index item s).result with
  | error fault =>
    rw [h] at hsettled
    simp only [a, iteration_of_error h]
    exact hsettled
  | ok document =>
    rw [hplain, h] at hsettled
    simp only [a, iteration_of_ok h]
    exact hsettled.go_on (hrun _ _ document _ hinside)

theorem mapAttempt_settles {run : ScopeRunner} (hrun : ScopeSettles acct run) (spec : MapSpec) :
    Settles acct (mapAttempt name spec run context label raw retryCount) := by
  have hP := @settles_composes acct
  rw [mapAttempt_eq]
  refine .bind (hP.eval _) fun effective => .bind (hP.mapItems _ _ fun _ => hname) fun items =>
    .bind (hP.iterationInputs _ _ _ fun _ _ => trivial) fun inputs =>
    .bind (collect_settles ?_ fun _ _ => trivial) fun outputs =>
      hP.concludeMap _ _ _ _ _ _ (fun _ _ => trivial) fun _ _ => trivial
  intro job hjob s
  obtain ⟨entry, -, rfl⟩ := List.mem_map.mp hjob
  exact iteration_settles hcontext label retryCount hrun spec effective entry.1 entry.2 s

omit hname in
theorem parallelAttempt_settles {maxSteps : Nat} {branches : List Machine}
    (hruns : ∀ b ∈ branches, ScopeSettles acct (b.run maxSteps)) (spec : ParallelSpec) :
    Settles acct
      (parallelAttempt name spec (runMachines maxSteps branches) context label raw retryCount) := by
  have hP := @settles_composes acct
  refine .bind (hP.eval _) fun effective => .bind (hP.parametersOr _ _ fun _ _ => trivial)
    fun input => .bind (collect_settles ?_ fun _ _ => trivial) fun outputs =>
      hP.finish _ _ _ _ _ fun _ _ => trivial
  intro job hjob s
  obtain ⟨b, hb, index, rfl⟩ := mem_branchJobs hjob
  exact hruns b hb context _ input s hcontext

end Attempts

theorem other_settles {st : State} (hname : st.name ≠ acct.name) {maxSteps : Nat}
    (hinner : ∀ inner ∈ st.kind.scopes, ScopeSettles acct (inner.run maxSteps)) {context : Context}
    (hcontext : acct.Inside context) (label : String) (raw : Json) :
    Settles acct (st.kind.run maxSteps st.name context label raw) := by
  have hP := @settles_composes acct
  obtain ⟨name, comment, kind⟩ := st
  -- Tasks and item readers ask under the name of their state, which is another one.
  cases kind with
  | pass spec => exact hP.pass _ _ _ fun _ _ => trivial
  | choice spec => exact hP.choice _ _ _ _
  | wait spec => exact hP.wait _ _ _ _
  | succeed spec => exact hP.succeed _ _ _ _
  | fail spec => exact hP.failState _ _ _ _
  | task spec =>
    exact policy_settles hname (fun k => hP.taskAttempt _ _ k (fun _ _ => trivial) hname) _ _
  | map spec processor =>
    have hrun := hinner processor (List.mem_singleton.mpr rfl)
    exact policy_settles hname
      (fun k => mapAttempt_settles hcontext hname label raw k hrun spec) _ _
  | parallel spec branches =>
    exact policy_settles hname
      (fun k => parallelAttempt_settles hcontext label raw k hinner spec) _ _

/-! ## Tasks of the name -/

/-- Attempts of a task, with the visit or retry that begins the first of them left out. -/
def Answered (acct : Account) (spec : TaskSpec) (context : Context) (raw : Json)
    (fault? : Option Fault) (s : Session) (log : Log) (s' : Session) : Prop :=
  log.visits = [] ∧
    (log.tries acct.name + 1 + acct.calls s = acct.calls s' ∨
      log.tries acct.name + acct.calls s = acct.calls s' ∧ ∃ fault retryCount before,
        fault? = some fault ∧ fault.catchable = false ∧
        (taskRequest acct.name spec context raw retryCount before).result = .error fault ∧
        (taskRequest acct.name spec context raw retryCount before).session = s')

section Own
variable {spec : TaskSpec} {context : Context} {raw : Json} {s s₁ s₂ : Session}

theorem attempt_answered {retryCount : Nat} {s : Session} {result : Except Fault Json}
    (hresult : (taskAttempt acct.name spec context raw retryCount s).result = result) :
    Answered acct spec context raw (Fault.of? result) s
      (taskAttempt acct.name spec context raw retryCount s).log
      (taskAttempt acct.name spec context raw retryCount s).session := by
  have hplain : (taskAttempt acct.name spec context raw retryCount).Plain :=
    Process.plain_composes.taskAttempt _ _ _ (fun _ _ => trivial) trivial
  obtain ⟨hrefused, haccepted⟩ := @taskAttempt_reading acct.name spec context raw retryCount s
  rw [hplain, hresult]
  refine ⟨by cases result <;> rfl, ?_⟩
  rw [Log.tries_raised]
  cases h : (taskRequest acct.name spec context raw retryCount s).result with
  | error fault =>
    obtain ⟨hattempt, hengine, hfatal⟩ := hrefused fault h
    have hcalls : acct.calls (taskAttempt acct.name spec context raw retryCount s).session =
        acct.calls s := by
      rw [Account.calls, Account.calls, hengine]
    refine .inr ⟨by omega, fault, retryCount, s, ?_, hfatal, h, ?_⟩
    · rw [← hresult, hattempt]
      rfl
    · rw [hattempt]
  | ok request =>
    have hcalls : acct.calls (taskAttempt acct.name spec context raw retryCount s).session =
        acct.calls s + 1 := haccepted request h
    left
    omega

theorem Answered.calls_of_catchable {fault : Fault} {log : Log}
    (h : Answered acct spec context raw (some fault) s log s₁) (hcatch : fault.catchable = true) :
    log.tries acct.name + 1 + acct.calls s = acct.calls s₁ := by
  rcases h.2 with hcalls | ⟨-, fault', -, -, hfault, hfatal, -⟩
  · exact hcalls
  · obtain rfl := Option.some.inj hfault
    rw [hcatch] at hfatal
    cases hfatal

theorem Answered.again {fault : Fault} {y : Option Fault} {a b : Log} {r : RetryRecord}
    (ha : Answered acct spec context raw (some fault) s a s₁) (hcatch : fault.catchable = true)
    (hr : r.state = acct.name) (hb : Answered acct spec context raw y s₁ b s₂) :
    Answered acct spec context raw y s (a ++ [.retry r] ++ b) s₂ := by
  have hcalls := ha.calls_of_catchable hcatch
  have htries : Log.tries acct.name (a ++ [.retry r] ++ b) =
      a.tries acct.name + 1 + b.tries acct.name := by
    rw [Log.tries_append, Log.tries_append, Log.tries_retry, if_pos hr]
  have hvisits : Log.visits (a ++ [.retry r] ++ b) = [] := by
    rw [Log.visits_append, Log.visits_append, ha.1, hb.1]
    rfl
  refine ⟨hvisits, ?_⟩
  rcases hb.2 with hcalls' | ⟨hcalls', hrefused⟩
  · left
    omega
  · exact .inr ⟨by omega, hrefused⟩

theorem policy_answered {p : Policy} (hp : p.state = acct.name) (retryCount : Nat)
    (usage : Usage) (s : Session) :
    let o := p.run (taskAttempt acct.name spec context raw) retryCount usage s
    Answered acct spec context raw (Fault.of? o.result) s o.log o.session := by
  refine Policy.run_induction
    (Q := fun s o => Answered acct spec context raw (Fault.of? o.result) s o.log o.session)
    ?_ ?_ ?_ ?_ ?_ retryCount usage s
  · exact fun k s output hresult => attempt_answered hresult
  · exact fun k s fault hresult => attempt_answered hresult
  · intro k s fault c document hresult hcatch _
    have hattempt := attempt_answered hresult
    exact ⟨hattempt.1, .inl (hattempt.calls_of_catchable hcatch)⟩
  · intro k s fault fatal hresult hcatch _
    have hattempt := attempt_answered hresult
    have hcalls := hattempt.calls_of_catchable hcatch
    refine ⟨?_, .inl ?_⟩
    · rw [Log.visits_append, hattempt.1]
      rfl
    · have hnone : Log.tries acct.name [.fault fatal] = 0 := rfl
      rw [Log.tries_append, hnone]
      exact hcalls
  · intro k s fault r number rest hresult hcatch hrest
    exact (attempt_answered hresult).again hcatch hp hrest

theorem own_settles {comment : Option String}
    (hst : (⟨acct.name, comment, .task spec⟩ : State) ∈ acct.states)
    (hcontext : acct.Inside context) (maxSteps : Nat) (label : String) {output : Option Json}
    {s : Session} :
    let a := StateKind.run maxSteps acct.name (.task spec) context label raw s
    ((∃ fault, a.result = .error fault) → output = none) →
      acct.Settled (Fault.of? a.result) s (.visit ⟨acct.name, label, raw, output⟩ :: a.log)
        a.session := by
  intro a houtput
  obtain ⟨hvisits, hcalls⟩ :
      Answered acct spec context raw (Fault.of? a.result) s a.log a.session :=
    policy_answered rfl _ _ s
  have htries := @Log.tries_visit acct.name ⟨acct.name, label, raw, output⟩ a.log
  rw [if_pos rfl] at htries
  rcases hcalls with hcalls | ⟨hcalls, fault, retryCount, before, hfault, hfatal, hrequest⟩
  · left
    omega
  · have hresult : a.result = .error fault := by
      cases h : a.result with
      | ok step => rw [h] at hfault; cases hfault
      | error fault' => rw [h] at hfault; rw [Option.some.inj hfault]
    refine .inr ⟨by omega, fault, hfault, hfatal, comment, spec, label, raw, context, retryCount,
      before, hst, hcontext, ?_, hrequest⟩
    have hall : Log.visits (.visit ⟨acct.name, label, raw, output⟩ :: a.log) =
        [⟨acct.name, label, raw, output⟩] := by
      show _ :: a.log.visits = _
      rw [hvisits]
    rw [hall, houtput ⟨fault, hresult⟩]
    rfl

end Own

/-! ## Scopes -/

theorem visit_settles {st : State} (hst : st ∈ acct.states)
    (htask : st.name = acct.name → ∃ spec, st.kind = .task spec) {maxSteps : Nat}
    (hinner : ∀ inner ∈ st.kind.scopes, ScopeSettles acct (inner.run maxSteps)) {context : Context}
    (hcontext : acct.Inside context) (label : String) (raw : Json) (s : Session)
    {result : Except Fault Step} {output : Option Json}
    (hresult : (st.kind.run maxSteps st.name context label raw s).result = result)
    (houtput : (∃ fault, result = .error fault) → output = none) :
    acct.Settled (Fault.of? result) s
      (.visit ⟨st.name, label, raw, output⟩ ::
        (st.kind.run maxSteps st.name context label raw s).log)
      (st.kind.run maxSteps st.name context label raw s).session := by
  subst hresult
  by_cases hname : st.name = acct.name
  · obtain ⟨spec, hkind⟩ := htask hname
    obtain ⟨_, comment, _⟩ := st
    obtain rfl := hname
    obtain rfl := hkind
    exact own_settles hst hcontext maxSteps label houtput
  · have hsettled := other_settles hname hinner hcontext label raw s
    have hvisit : Log.tries acct.name [.visit ⟨st.name, label, raw, output⟩] = 0 := by
      rw [Log.tries_visit, if_neg hname]
      rfl
    exact Account.Settled.go_on (.of_silent hvisit rfl) hsettled

theorem walk_settles {m : Machine} (hm : ∀ st ∈ m.states, st ∈ acct.states)
    (htasks : ∀ st ∈ acct.states, st.name = acct.name → ∃ spec, st.kind = .task spec)
    {maxSteps : Nat} (hinner : ∀ st ∈ m.states, ∀ inner ∈ st.kind.scopes,
      ScopeSettles acct (inner.run maxSteps)) {context : Context} (hcontext : acct.Inside context)
    (label : String) (left : Nat) (current : String) (last : Option String) (document : Json)
    (s : Session) :
    let r := m.walk maxSteps context label left current last document s
    acct.Settled (Fault.of? (r.output.mapError (·.fault))) s r.log r.session := by
  -- On the steps left: a visit ends the walk, or it settles without a fault and the walk goes on.
  induction left generalizing current last document s with
  | zero =>
    rw [Machine.walk_zero]
    exact .of_silent rfl rfl
  | succ left ih =>
    cases hst : m.state? current with
    | none =>
      rw [Machine.walk_of_missing hst]
      exact .of_silent rfl rfl
    | some st =>
      have hmem := Machine.mem_of_state? hst
      obtain rfl := Machine.name_of_state? hst
      have hvisit : ∀ {result output}, _ → _ → _ := fun {result output} =>
        @visit_settles acct st (hm st hmem) (htasks st (hm st hmem)) maxSteps (hinner st hmem)
          context hcontext label document s result output
      cases hresult : (st.kind.run maxSteps st.name context label document s).result with
      | error fault =>
        rw [Machine.walk_of_error hst hresult]
        exact hvisit hresult fun _ => rfl
      | ok step =>
        cases step with
        | finish output =>
          rw [Machine.walk_of_finish hst hresult]
          exact hvisit hresult nofun
        | next target output =>
          rw [Machine.walk_of_next hst hresult]
          exact (hvisit hresult nofun).go_on (ih target _ output _)

end Balance

end Run

theorem Machine.run_settles {acct : Run.Account}
    (htasks : ∀ st ∈ acct.states, st.name = acct.name → ∃ spec, st.kind = .task spec)
    (maxSteps : Nat) (m : Machine) (hm : ∀ st ∈ m.everyState, st ∈ acct.states) :
    Run.ScopeSettles acct (m.run maxSteps) := by
  induction m using Machine.induction with
  | step m ih =>
    intro context label input s hcontext
    rw [Machine.run_eq_walk]
    refine Run.walk_settles (fun st hst => hm st (Machine.mem_everyState hst)) htasks ?_ hcontext
      label maxSteps m.startAt none input s
    intro st hst inner hinner
    exact ih st hst inner hinner fun st' hst' => hm st' (Machine.everyState_subset hst hinner hst')

/-- Where all states of a name are tasks, an execution with a fresh engine makes one call for every
visit and every retry of the name. If it makes one call less, a request of such a task ended it with
a fault that nothing can catch. Every attempt takes one call or fails with its request. -/
theorem Machine.execute_settles (m : Machine) (name : String)
    (htasks : ∀ st ∈ m.everyState, st.name = name → ∃ spec, st.kind = .task spec) (input : Json)
    (rules : MockConfig) (exhaustion : Exhaustion) (options : ExecutionOptions) :
    let trace := (m.execute input { config := rules, exhaustion } options).1
    let engine := (m.execute input { config := rules, exhaustion } options).2
    let session := (m.execution input { config := rules, exhaustion } options).session
    let start := (Context.start options input options.entropy).1
    let tries := trace.stateExecutions.countP (·.state == name) +
      trace.retries.countP (·.state == name)
    (tries = engine.callCount name ∨
      tries = engine.callCount name + 1 ∧
        ∃ fault state comment spec scope raw item retryCount before,
          fault.catchable = false ∧ trace.success = false ∧
          trace.error = some ⟨fault.error, fault.cause, some state⟩ ∧
          (⟨name, comment, .task spec⟩ : State) ∈ m.everyState ∧
          trace.stateExecutions.getLast? = some ⟨name, scope, raw, none⟩ ∧
          let request := Run.taskRequest name spec { start with mapItem := item } raw retryCount
            before
          request.result = .error fault ∧ request.session = session) ∧
    ∀ spec context raw retryCount s,
      let request := (Run.taskRequest name spec context raw retryCount s).result
      let attempt := Run.taskAttempt name spec context raw retryCount s
      (∀ fault, request = .error fault →
        attempt.result = .error fault ∧ fault.catchable = false ∧
          attempt.session.engine = s.engine) ∧
      ∀ asked, request = .ok asked →
        attempt.session.engine.callCount name = s.engine.callCount name + 1 := by
  intro trace engine session start tries
  refine ⟨?_, ?_⟩
  · let acct : Run.Account := ⟨name, m.everyState, start⟩
    have hruns : Run.ScopeSettles acct (m.run options.maxSteps) :=
      Machine.run_settles htasks options.maxSteps m fun _ hst => hst
    let entropy := (Context.start options input options.entropy).2
    have hsettled :=
      hruns start "" input ⟨{ config := rules, exhaustion }, entropy⟩ ⟨start.mapItem, rfl⟩
    have htrace : trace = (m.execution input { config := rules, exhaustion } options).trace := rfl
    have htries : tries =
        (m.execution input { config := rules, exhaustion } options).log.tries name := by
      simp only [tries, htrace, ScopeRun.trace_stateExecutions, ScopeRun.trace_retries]
      rfl
    rcases hsettled with hcalls | ⟨hcalls, fault, hfault, hfatal, hrefused⟩
    · left
      rw [htries]
      exact hcalls
    · obtain ⟨comment, spec, scope, raw, _, retryCount, before, hst, ⟨item, rfl⟩, hlast,
        hrequest⟩ := hrefused
      obtain ⟨state, houtput⟩ := Fault.of?_located hfault
      obtain ⟨hsuccess, -, herror⟩ := ScopeRun.trace_of_error _ houtput
      refine .inr ⟨by rw [htries]; exact hcalls, fault, state, comment, spec, scope, raw, item,
        retryCount, before, hfatal, hsuccess, herror, hst, ?_, hrequest⟩
      rw [htrace, ScopeRun.trace_stateExecutions]
      exact hlast
  · intro spec context raw retryCount s request attempt
    obtain ⟨hrefused, haccepted⟩ := @Run.taskAttempt_reading name spec context raw retryCount s
    refine ⟨fun fault h => ?_, haccepted⟩
    obtain ⟨hattempt, hengine, hfatal⟩ := hrefused fault h
    exact ⟨by simp only [attempt, hattempt], hfatal, hengine⟩

/-- Asks for every item under its name, and skips the items that are busy twice. -/
def askingEach : Machine :=
  let ask : TaskSpec := {
    io := { inputPath := .path "$.name" }
    resultPath := .whole
    resource := "call"
    parameters := none
    resultSelector := none
    timeoutSeconds := none
    timeoutSecondsPath := none
    heartbeatSeconds := none
    retry := [{ errorEquals := ["Busy"], maxAttempts := ⟨1, by decide⟩ }]
    catchers := [⟨["Busy"], "Skip", .whole⟩]
    transition := .finish }
  let processor : Machine :=
    ⟨none, "Ask", none, [⟨"Ask", none, .task ask⟩, ⟨"Skip", none, .succeed ⟨{}⟩⟩]⟩
  ⟨none, "Each", none, [⟨"Each", none, .map Run.plainMap processor⟩]⟩

def askingRules : MockConfig where
  mocks := [⟨"Ask", none, .conditional
    [⟨.str "Ben", none, some ⟨"Busy", none⟩⟩] (some (.str "here"))⟩]

/-- One try for Ann, two for Ben, and one for the item without a name, which has no request. -/
theorem Machine.execute_settles_asking :
    (∀ st ∈ askingEach.everyState, st.name = "Ask" → ∃ spec, st.kind = .task spec) ∧
      let input : Json := .arr [.obj [("name", .str "Ann")], .obj [("name", .str "Ben")], .obj []]
      let run := askingEach.execute input { config := askingRules } { executionName := some "run" }
      run.1.stateExecutions.countP (·.state == "Ask") = 3 ∧
        run.1.retries.countP (·.state == "Ask") = 1 ∧
        run.2.callCount "Ask" = 3 ∧ run.1.success = false ∧
        ∃ scope raw, run.1.stateExecutions.getLast? = some ⟨"Ask", scope, raw, none⟩ := by
  let input : Json := .arr [.obj [("name", .str "Ann")], .obj [("name", .str "Ben")], .obj []]
  let options : ExecutionOptions := { executionName := some "run" }
  let run := askingEach.execute input { config := askingRules } options
  have htasks : ∀ st ∈ askingEach.everyState, st.name = "Ask" → ∃ spec, st.kind = .task spec := by
    have hall : (askingEach.everyState.all fun st =>
        st.name != "Ask" || match st.kind with | .task _ => true | _ => false) = true := by
      decide
    intro st hst hname
    have hkind := List.all_eq_true.mp hall st hst
    cases h : st.kind with
    | task spec => exact ⟨spec, rfl⟩
    | _ => simp [hname, h] at hkind
  have hvisits : run.1.stateExecutions.countP (·.state == "Ask") = 3 := by decide +kernel
  have hretries : run.1.retries.countP (·.state == "Ask") = 1 := by decide +kernel
  have hcalls : run.2.callCount "Ask" = 3 := by decide +kernel
  obtain ⟨hbalance, -⟩ :=
    Machine.execute_settles askingEach "Ask" htasks input askingRules .repeatLast options
  rcases hbalance with heven | ⟨-, fault, state, comment, spec, scope, raw, item, retryCount,
    before, -, hfailed, -, -, hlast, -⟩
  · have heven : run.1.stateExecutions.countP (·.state == "Ask") +
        run.1.retries.countP (·.state == "Ask") = run.2.callCount "Ask" := heven
    rw [hvisits, hretries, hcalls] at heven
    cases heven
  · exact ⟨htasks, hvisits, hretries, hcalls, hfailed, scope, raw, hlast⟩

end StateCheck
