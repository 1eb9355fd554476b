import StateCheck.Proofs.Machine.References
import StateCheck.Proofs.Path.Write
import StateCheck.Proofs.Run.Policy
import StateCheck.Proofs.Run.Requests
/-!
The attempts of a task that always fails.

A retrier that covers the error of every answer is used until its limit or the ceiling of steps is
reached (`Policy.run_attempts`). Its limit is what the document says modulo `2 ^ 32`
(`Load.retrier_limit`), so that the number of attempts is the one that the document asks for below
that bound only (`Machine.task_attempts`).
-/
namespace StateCheck
set_option autoImplicit false

/-! ## The limit of a retrier -/

namespace Load

theorem spec_of_task {name typeName : String} {body : Json} {kind : StateKind}
    (h : Reads name body typeName kind) (htype : typeName = "Task") :
    ∃ spec, kind = .task spec ∧ task body = .ok spec := by
  cases h with
  | task hs => exact ⟨_, rfl, hs⟩
  | _ => simp at htype

theorem task_retry {body : Json} {spec : TaskSpec} (h : task body = .ok spec) :
    retry body = .ok spec.retry := by
  unfold task at h
  split at h
  · cases h
  · simp only [bind_eq_ok_iff] at h
    obtain ⟨io, -, resultPath, -, retriers, hretry, cs, -, t, -, h⟩ := h
    cases h
    exact hretry

theorem retrier_limit {index n : Nat} {entry : Json} {r : Retrier}
    (h : retrier index entry = .ok r) (hn : entry.getNatural? "MaxAttempts" = some n) :
    errorEquals (.retry index) entry = .ok r.errorEquals ∧ r.maxAttempts.val = n % 2 ^ 32 := by
  obtain ⟨jitter, -, h⟩ := bind_eq_ok_iff.mp h
  obtain ⟨errors, herrors, h⟩ := bind_eq_ok_iff.mp h
  cases h
  refine ⟨herrors, ?_⟩
  rw [hn]
  rfl

theorem retry_single {body entry : Json} {retriers : List Retrier} {n : Nat}
    (h : retry body = .ok retriers) (hentry : body.get? "Retry" = some (.arr [entry]))
    (hn : entry.getNatural? "MaxAttempts" = some n) : ∃ r, retriers = [r] ∧
      errorEquals (.retry 0) entry = .ok r.errorEquals ∧ r.maxAttempts.val = n % 2 ^ 32 := by
  rw [retry, hentry] at h
  obtain ⟨r, hr, h⟩ := bind_eq_ok_iff.mp h
  cases h
  exact ⟨r, rfl, retrier_limit hr hn⟩

end Load

/-! ## Answers -/

/-- The engine answers every call of the state with this error, without delay. -/
def MockEngine.Refuses (engine : MockEngine) (state : String) (error : MockError) : Prop :=
  ∃ rule, engine.config.ruleFor? state = some rule ∧ rule.delay = none ∧
    rule.behavior = .error error

namespace Run

variable {name : String} {spec : TaskSpec} {context : Context} {raw : Json} {k : Nat}
  {s : Session} {error : MockError} {request : Json × Option Nat}

theorem taskAnswer_refused (h : s.engine.Refuses name error) :
    taskAnswer name spec context raw k request s =
      ⟨.error (.ofTask ⟨error.errorType, error.cause⟩),
        [.fault (.ofTask ⟨error.errorType, error.cause⟩)],
        { s with engine := (s.engine.resolve name request.1).2 }⟩ := by
  obtain ⟨rule, hrule, hdelay, hbehavior⟩ := h
  have hcall : Process.call name request.1 s =
      ⟨.ok ⟨.failure ⟨error.errorType, error.cause⟩, none⟩, [],
        { s with engine := (s.engine.resolve name request.1).2 }⟩ := by
    simp only [Process.call, MockEngine.resolve, MockRule.answer, MockRule.outcome, hrule, hdelay,
      hbehavior, MockOutcome.ofError]
  have hok : (Process.call name request.1 s).result =
      .ok ⟨.failure ⟨error.errorType, error.cause⟩, none⟩ := by rw [hcall]
  rw [taskAnswer, Process.bind_of_ok hok, hcall]
  rfl

theorem taskAttempt_refused (h : s.engine.Refuses name error)
    (hrequest : (taskRequest name spec context raw k s).result = .ok request) :
    let attempt := taskAttempt name spec context raw k s
    attempt.result = .error (.ofTask ⟨error.errorType, error.cause⟩) ∧
      attempt.log.retries = [] ∧ attempt.session.engine.Refuses name error ∧
      attempt.session.engine.callCount name = s.engine.callCount name + 1 := by
  have hoffline := @taskRequest_offline name spec context raw k s
  have hlog : (taskRequest name spec context raw k s).log = [] := by
    rw [taskRequest_plain, hrequest]
    rfl
  have hrefuses : (taskRequest name spec context raw k s).session.engine.Refuses name error := by
    rwa [hoffline]
  have hattempt : taskAttempt name spec context raw k s =
      taskAnswer name spec context raw k request
        (taskRequest name spec context raw k s).session := by
    rw [taskAttempt_eq, Process.bind_of_ok hrequest, hlog]
    rfl
  obtain ⟨-, hcalls⟩ := @taskAttempt_reading name spec context raw k s
  refine ⟨?_, ?_, ?_, hcalls request hrequest⟩
  · rw [hattempt, taskAnswer_refused hrefuses]
  · rw [hattempt, taskAnswer_refused hrefuses]
    rfl
  · rw [hattempt, taskAnswer_refused hrefuses]
    exact hrefuses

end Run

namespace Policy

variable {name : String} {spec : TaskSpec} {context : Context} {raw : Json} {error : MockError}
  {p : Policy} {r : Retrier}

theorem handle_silent (p : Policy) (fault : Fault) (s : Session) :
    (p.handle fault s).session = s ∧ (p.handle fault s).log.retries = [] := by
  cases hfind : p.catchers.find? fun c => errorMatches c.errorEquals fault.error with
  | none =>
    rw [handle_of_uncaught s hfind]
    exact ⟨rfl, rfl⟩
  | some c =>
    cases hwrite : c.resultPath.mergeResult p.raw (errorOutput fault) with
    | error e =>
      rw [handle_of_unwritten s hfind hwrite]
      exact ⟨rfl, rfl⟩
    | ok document =>
      rw [handle_of_written s hfind hwrite]
      exact ⟨rfl, rfl⟩

/-- Attempts with one call each and a retry between every two of them: as many as `tries`, unless
the request of an earlier one could not be built. The first of them follows `used` others. -/
def Tried (name : String) (spec : TaskSpec) (context : Context) (raw : Json) (used tries : Nat)
    (s : Session) (o : Outcome Step) : Prop :=
  (o.session.engine.callCount name = s.engine.callCount name + tries ∧
    o.log.retries.length + 1 = tries) ∨
  ∃ k before fault, k < tries ∧
    (Run.taskRequest name spec context raw (used + k) before).result = .error fault ∧
    fault.catchable = false ∧ o.result = .error fault ∧
    o.session.engine.callCount name = s.engine.callCount name + k ∧ o.log.retries.length = k

section Step
variable {used tries : Nat} {usage : Usage} {s : Session}

theorem due?_single {error : String} (used : Nat)
    (h : errorMatches r.errorEquals error = true) :
    Usage.due? error [(r, used)] =
      if used < r.maxAttempts then some (r, used + 1, [(r, used + 1)]) else none := by
  rw [Usage.due?, if_pos h]

theorem tried_of_unbuilt {fault : Fault} (htries : 0 < tries)
    (h : (Run.taskRequest name spec context raw used s).result = .error fault) :
    Tried name spec context raw used tries s
      (p.run (Run.taskAttempt name spec context raw) used usage s) := by
  obtain ⟨hrefused, -⟩ := @Run.taskAttempt_reading name spec context raw used s
  obtain ⟨hattempt, hengine, hfatal⟩ := hrefused fault h
  have hresult : (Run.taskAttempt name spec context raw used s).result = .error fault := by
    rw [hattempt]
  rw [run_of_fatal hresult hfatal]
  refine .inr ⟨0, s, fault, htries, h, hfatal, rfl, ?_, ?_⟩
  · rw [hengine]
    rfl
  · rw [hattempt]
    rfl

theorem tried_last (hmatch : errorMatches r.errorEquals error.errorType = true)
    (h : s.engine.Refuses name error) (hstop : r.maxAttempts ≤ used ∨ p.maxSteps ≤ used + 1) :
    Tried name spec context raw used 1 s
      (p.run (Run.taskAttempt name spec context raw) used [(r, used)] s) := by
  cases hrequest : (Run.taskRequest name spec context raw used s).result with
  | error fatal => exact tried_of_unbuilt one_pos hrequest
  | ok request =>
    obtain ⟨hresult, hretries, -, hcalls⟩ := Run.taskAttempt_refused h hrequest
    have hdue := due?_single used hmatch
    by_cases hlt : used < r.maxAttempts
    · rw [if_pos hlt] at hdue
      rw [run_of_ceiling hresult rfl hdue (hstop.resolve_left (Nat.not_le.mpr hlt))]
      refine .inl ⟨hcalls, ?_⟩
      rw [Outcome.after, Log.retries_append, hretries]
      rfl
    · rw [if_neg hlt] at hdue
      obtain ⟨hsession, hsilent⟩ := p.handle_silent (.ofTask ⟨error.errorType, error.cause⟩)
        (Run.taskAttempt name spec context raw used s).session
      rw [run_of_not_due hresult rfl hdue]
      refine .inl ⟨?_, ?_⟩
      · rw [Outcome.after, hsession]
        exact hcalls
      · rw [Outcome.after, Log.retries_append, hretries, hsilent]
        rfl

theorem Tried.again {s' : Session} {log : Log} {record : RetryRecord} {rest : Outcome Step}
    (h : Tried name spec context raw (used + 1) tries s' rest) (hretries : log.retries = [])
    (hcalls : s'.engine.callCount name = s.engine.callCount name + 1) :
    Tried name spec context raw used (tries + 1) s (rest.after (log ++ [.retry record])) := by
  have hlength : (rest.after (log ++ [.retry record])).log.retries.length =
      rest.log.retries.length + 1 := by
    rw [Outcome.after, Log.retries_append, Log.retries_append, hretries]
    rfl
  rcases h with ⟨hall, hbetween⟩ | ⟨k, before, fault, hk, hrequest, hfatal, hresult, hall, hbetween⟩
  · refine .inl ⟨?_, by omega⟩
    rw [Outcome.after, hall, hcalls]
    omega
  · refine .inr ⟨k + 1, before, fault, by omega, ?_, hfatal, hresult, ?_, by omega⟩
    · rwa [← Nat.add_assoc, Nat.add_right_comm]
    · rw [Outcome.after, hall, hcalls]
      omega

end Step

theorem run_attempts (hmatch : errorMatches r.errorEquals error.errorType = true) (left used : Nat)
    (hused : r.maxAttempts = used + left) (hsteps : used < p.maxSteps) (s : Session)
    (h : s.engine.Refuses name error) :
    Tried name spec context raw used (min (left + 1) (p.maxSteps - used)) s
      (p.run (Run.taskAttempt name spec context raw) used [(r, used)] s) := by
  -- On the retries that the retrier has left; so far it was used for every attempt.
  induction left generalizing used s with
  | zero =>
    have htries : min (0 + 1) (p.maxSteps - used) = 1 := by omega
    rw [htries]
    exact tried_last hmatch h (.inl (by omega))
  | succ left ih =>
    rcases Nat.lt_or_ge (used + 1) p.maxSteps with hnext | hlast
    · cases hrequest : (Run.taskRequest name spec context raw used s).result with
      | error fatal => exact tried_of_unbuilt (by omega) hrequest
      | ok request =>
        obtain ⟨hresult, hretries, hrefuses, hcalls⟩ := Run.taskAttempt_refused h hrequest
        have hdue := due?_single used hmatch
        rw [if_pos (by omega)] at hdue
        have htries : min (left + 1 + 1) (p.maxSteps - used) =
            min (left + 1) (p.maxSteps - (used + 1)) + 1 := by omega
        -- The limit has 32 bits, so the count of its retries does not wrap around.
        have hlimit : (r.maxAttempts : Nat) < 2 ^ 32 := r.maxAttempts.isLt
        have hcount : (used + 1) % 2 ^ 32 = used + 1 := Nat.mod_eq_of_lt (by omega)
        rw [htries, run_of_due hresult rfl hdue hnext, hcount]
        exact (ih (used + 1) (by omega) hnext _ hrefuses).again hretries hcalls
    · have htries : min (left + 1 + 1) (p.maxSteps - used) = 1 := by omega
      rw [htries]
      exact tried_last hmatch h (.inr hlast)

end Policy

/-- A task whose only retrier has the limit `n` in the document, and whose every call is answered
with an error that this retrier covers, is attempted `n % 2 ^ 32 + 1` times in a visit, or as often
as the ceiling of steps allows, whatever the scope, the context and the input. Only a request that
cannot be built ends the visit earlier. -/
theorem Machine.task_attempts {doc scope body entry : Json} {m : Machine} {label : ScopeLabel}
    {name : String} {n : Nat} (hload : Machine.ofJson doc = .ok m)
    (hscope : doc.ScopeOf .topLevel label scope) (hentry : (name, body) ∈ scope.stateEntries)
    (htype : body.getString? "Type" = some "Task")
    (hretry : body.get? "Retry" = some (.arr [entry])) (hn : n < 2 ^ 64)
    (hlimit : entry.get? "MaxAttempts" = some (.num (.int n))) :
    ∃ inner comment spec r, m.Within .topLevel label inner ∧
      (⟨name, comment, .task spec⟩ : State) ∈ inner.states ∧ Load.task body = .ok spec ∧
      spec.retry = [r] ∧ Load.errorEquals (.retry 0) entry = .ok r.errorEquals ∧
      ∀ maxSteps context path raw s error, 1 ≤ maxSteps → s.engine.Refuses name error →
        errorMatches r.errorEquals error.errorType = true →
        Policy.Tried name spec context raw 0 (min (n % 2 ^ 32 + 1) maxSteps) s
          ((StateKind.task spec).run maxSteps name context path raw s) := by
  obtain ⟨inner, hwithin, hinner⟩ :=
    Load.within_of_scopeOf (Machine.loaded_of_ofJson hload).1 hscope
  obtain ⟨st, hst, hstate⟩ := (Load.scope_entries hinner).2.2 name body hentry
  obtain ⟨rfl, typeName, htypeName, hreads⟩ := Load.state_ok hstate
  obtain ⟨_, comment, kind⟩ := st
  obtain ⟨spec, rfl, hspec⟩ :=
    Load.spec_of_task hreads (Option.some.inj (htypeName.symm.trans htype))
  have hnatural : entry.getNatural? "MaxAttempts" = some n := by
    have hfits : 0 ≤ (n : Int) ∧ (n : Int) < pow2 64 := ⟨by omega, by exact_mod_cast hn⟩
    rw [Json.getNatural?, hlimit, Option.bind_some, Json.asNatural?, Number.toNatural?,
      if_pos hfits, Int.toNat_natCast]
  obtain ⟨r, hr, herrors, hmax⟩ := Load.retry_single (Load.task_retry hspec) hretry hnatural
  refine ⟨inner, comment, spec, r, hwithin, hst, hspec, hr, herrors, ?_⟩
  intro maxSteps context path raw s error hsteps hrefuses hmatch
  rw [StateKind.run, hr]
  refine Policy.run_attempts hmatch (n % 2 ^ 32) 0 (by omega) ?_ s hrefuses
  exact hsteps

/-- A task that retries every error, up to this limit. -/
def callingBody (limit : Nat) : Json :=
  .obj [("End", .bool true), ("Resource", .str "call"),
    ("Retry", .arr [.obj [("ErrorEquals", .arr [.str "States.ALL"]),
      ("MaxAttempts", .num (.int limit))]]),
    ("Type", .str "Task")]

def calling (limit : Nat) : Json :=
  .obj [("StartAt", .str "Call"), ("States", .obj [("Call", callingBody limit)])]

def callingTask (limit : Fin UInt32.size) : TaskSpec where
  io := {}
  resultPath := .whole
  resource := "call"
  parameters := none
  resultSelector := none
  timeoutSeconds := none
  timeoutSecondsPath := none
  heartbeatSeconds := none
  retry := [{ errorEquals := ["States.ALL"], maxAttempts := limit }]
  catchers := []
  transition := .finish

def callingMachine (limit : Fin UInt32.size) : Machine :=
  ⟨none, "Call", none, [⟨"Call", none, .task (callingTask limit)⟩]⟩

def busyRules : MockConfig where
  mocks := [⟨"Call", none, .error ⟨"Busy", none⟩⟩]

theorem ofJson_calling {limit : Nat} {loaded : Fin UInt32.size}
    (h : Load.task (callingBody limit) = .ok (callingTask loaded)) :
    Machine.ofJson (calling limit) = .ok (callingMachine loaded) := by
  have hkind : Load.stateKind "Call" "Task" (callingBody limit) =
      .ok (.task (callingTask loaded)) := by
    rw [Load.stateKind, h]
    rfl
  have hstate : Load.state "Call" (callingBody limit) =
      .ok ⟨"Call", none, .task (callingTask loaded)⟩ := by
    have htype : (callingBody limit).getString? "Type" = some "Task" := rfl
    have hobject : (!(callingBody limit).isObject) = false := rfl
    rw [Load.state, hobject, if_neg Bool.false_ne_true, htype]
    dsimp only
    rw [hkind]
    rfl
  have hstates : Load.states [("Call", callingBody limit)] =
      .ok [⟨"Call", none, .task (callingTask loaded)⟩] := by
    rw [Load.states, hstate, Load.states]
    rfl
  have hscope : Load.scope .topLevel (calling limit) = .ok (callingMachine loaded) := by
    have hstart : (calling limit).getString? "StartAt" = some "Call" := rfl
    have hfields : (calling limit).get? "States" = some (.obj [("Call", callingBody limit)]) := rfl
    unfold Load.scope
    rw [hstart]
    dsimp only
    split
    · next fields hfound =>
      rw [hfields] at hfound
      cases hfound
      rw [hstates]
      rfl
    · next hnot => exact absurd hfields (hnot _)
  have hcheck : (callingMachine loaded).checkReferences .topLevel = .ok () := by
    refine (Machine.checkReferences_ok_iff _ _).mpr ((Machine.closed_iff _).mpr ⟨rfl, ?_⟩)
    intro st hst
    obtain rfl := List.mem_singleton.mp hst
    exact ⟨fun _ htarget => absurd htarget List.not_mem_nil,
      fun _ hinner => absurd hinner List.not_mem_nil⟩
  have hlanguage : (calling limit).getString? "QueryLanguage" = none := rfl
  rw [Machine.ofJson, hlanguage]
  dsimp only
  rw [Machine.ofJson.load, hscope]
  exact andThen_eq_ok_iff.mpr ⟨hcheck, rfl⟩

/-- Two retries, and the ceiling of steps at four. -/
theorem Machine.task_attempts_calling :
    Machine.ofJson (calling 2) = .ok (callingMachine 2) ∧
      ∀ context path raw, ((StateKind.task (callingTask 2)).run 4 "Call" context path raw
        ⟨{ config := busyRules }, .seeded 0⟩).session.engine.callCount "Call" = 3 := by
  have htask : Load.task (callingBody 2) = .ok (callingTask 2) := rfl
  have hload := ofJson_calling htask
  have hentry : ("Call", callingBody 2) ∈ (calling 2).stateEntries := List.mem_singleton.mpr rfl
  obtain ⟨inner, comment, spec, r, -, -, hspec, hr, -, hvisits⟩ :=
    Machine.task_attempts (n := 2) hload .self hentry rfl rfl (by decide) rfl
  rw [htask] at hspec
  cases hspec
  cases hr
  refine ⟨hload, fun context path raw => ?_⟩
  have hrefuses : MockEngine.Refuses { config := busyRules } "Call" ⟨"Busy", none⟩ :=
    ⟨⟨"Call", none, .error ⟨"Busy", none⟩⟩, rfl, rfl, rfl⟩
  rcases hvisits 4 context path raw ⟨{ config := busyRules }, .seeded 0⟩ ⟨"Busy", none⟩ (by decide)
    hrefuses (by decide) with ⟨hcalls, -⟩ | ⟨k, before, fault, -, hrequest, -⟩
  · exact hcalls
  · have hparse : Path.parse "$" = .ok ⟨.data, []⟩ := by
      simp [Path.parse, Path.readSegments]
    have hselect : PathField.whole.select ⟨raw, context.document "Call" (0 + k)⟩ = .ok raw :=
      (Path.resolve_eq_ok_iff hparse ⟨rfl, rfl⟩).mpr rfl
    have hbuilt : (Run.taskRequest "Call" (callingTask 2) context raw (0 + k) before).result =
        .ok (raw, none) := by
      simp only [Run.taskRequest, callingTask, hselect]
      rfl
    rw [hbuilt] at hrequest
    cases hrequest

/-- A limit that exceeds 32 bits by one comes to no retries at all. -/
theorem Machine.task_attempts_wrapped :
    Machine.ofJson (calling (2 ^ 32)) = .ok (callingMachine 0) ∧
      ((callingMachine 0).execute .null { config := busyRules }
        { maxSteps := 3, executionName := some "run" }).2.callCount "Call" = 1 := by
  have htask : Load.task (callingBody (2 ^ 32)) = .ok (callingTask 0) := rfl
  exact ⟨ofJson_calling htask, by decide +kernel⟩

end StateCheck
