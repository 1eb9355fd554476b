import StateCheck.Proofs.Run.Walk
/-!
Faults that nothing intercepts.

`Run.Ends` relates a log to the fault that ends it: a fault that is not catchable is only found at
the end of a log, and nothing is entered or retried after it. Retrying and catching keep that, for
they only go on from catchable faults, and so does every run of every machine (`Machine.run_ends`).
-/
namespace StateCheck
set_option autoImplicit false

def Fault.of? {α : Type} : Except Fault α → Option Fault
  | .ok _ => none
  | .error fault => some fault

/-- Whether the event neither enters nor retries a state. -/
def Event.Quiet : Event → Prop
  | .visit _ | .retry _ => False
  | .map _ _ | .parallel _ _ | .fault _ | .lost _ => True

/-- Whether the event is a fault that may not be intercepted. -/
def Event.Fatal : Event → Prop
  | .fault f => f.catchable = false
  | _ => False

def Event.NoFault : Event → Prop
  | .fault _ => False
  | _ => True

namespace Run

/-- A log with the fault that ends it: quiet from that fault on, and quiet from every fatal fault
on, which is the same fault. -/
structure Ends (fault? : Option Fault) (log : Log) : Prop where
  ending : ∀ fault, fault? = some fault → ∃ before after, log = before ++ .fault fault :: after ∧
    ∀ e ∈ after, e.Quiet
  fatal : ∀ fault, .fault fault ∈ log → fault.catchable = false → fault? = some fault
  quiet : log.Pairwise fun a b => a.Fatal → b.Quiet

/-! ## Logs put together -/

theorem Ends.nil : Ends none [] := ⟨nofun, by simp, .nil⟩

theorem Ends.fault (fault : Fault) : Ends (some fault) [.fault fault] where
  ending := by
    rintro _ ⟨rfl⟩
    exact ⟨[], [], rfl, by simp⟩
  fatal := by simp +contextual
  quiet := List.pairwise_singleton ..

theorem Ends.event {e : Event} (h : e.NoFault) : Ends none [e] where
  ending := nofun
  fatal := by
    intro fault hmem
    obtain rfl := List.mem_singleton.mp hmem
    exact h.elim
  quiet := List.pairwise_singleton ..

theorem Ends.append {x y : Option Fault} {a b : Log} (ha : Ends x a)
    (hx : ∀ fault, x = some fault → fault.catchable = true) (hb : Ends y b) :
    Ends y (a ++ b) := by
  -- A fatal fault in `a` would be the one that ends it, and that one is catchable.
  have hnone : ∀ fault, .fault fault ∈ a → fault.catchable = true := by
    intro fault hmem
    by_contra hfatal
    have hfatal : fault.catchable = false := by simpa using hfatal
    have := hx fault (ha.fatal fault hmem hfatal)
    rw [hfatal] at this
    cases this
  refine ⟨?_, ?_, ?_⟩
  · intro fault hy
    obtain ⟨before, after, rfl, hafter⟩ := hb.ending fault hy
    exact ⟨a ++ before, after, by rw [List.append_assoc], hafter⟩
  · intro fault hmem hfatal
    rcases List.mem_append.mp hmem with hmem | hmem
    · rw [hnone fault hmem] at hfatal
      cases hfatal
    · exact hb.fatal fault hmem hfatal
  · refine List.pairwise_append.mpr ⟨ha.quiet, hb.quiet, ?_⟩
    intro e he e' _ hfatal
    cases e with
    | fault fault =>
      rw [Event.Fatal, hnone fault he] at hfatal
      cases hfatal
    | _ => cases hfatal

theorem Ends.go_on {y : Option Fault} {a b : Log} (ha : Ends none a) (hb : Ends y b) :
    Ends y (a ++ b) :=
  ha.append nofun hb

theorem Ends.after {e : Event} (he : e.NoFault) {y : Option Fault} {log : Log} (h : Ends y log) :
    Ends y (e :: log) :=
  (Ends.event he).go_on h

theorem Ends.caught {fault : Fault} {log : Log} (h : Ends (some fault) log)
    (hcatch : fault.catchable = true) : Ends none log := by
  rw [← List.append_nil log]
  exact h.append (by rintro _ ⟨rfl⟩; exact hcatch) .nil

/-- Inner scopes are recorded after the fault that ends them. -/
theorem Ends.record {x : Option Fault} {log : Log} {e : Event} (h : Ends x log)
    (hquiet : e.Quiet) (he : e.NoFault) : Ends x (log ++ [e]) where
  ending := by
    intro fault hx
    obtain ⟨before, after, rfl, hafter⟩ := h.ending fault hx
    refine ⟨before, after ++ [e], by rw [List.append_assoc, List.cons_append], ?_⟩
    exact (joins_forall _).append hafter (by simpa using hquiet)
  fatal := by
    intro fault hmem hfatal
    rcases List.mem_append.mp hmem with hmem | hmem
    · exact h.fatal fault hmem hfatal
    · obtain rfl := List.mem_singleton.mp hmem
      exact he.elim
  quiet := by
    refine List.pairwise_append.mpr ⟨h.quiet, List.pairwise_singleton .., ?_⟩
    intro a _ b hb _
    rw [List.mem_singleton.mp hb]
    exact hquiet

theorem ends_raised {α : Type} (result : Except Fault α) :
    Ends (Fault.of? result) (Fault.raised result) := by
  cases result with
  | ok a => exact .nil
  | error fault => exact .fault fault

/-! ## Runs -/

def EndsAs (r : ScopeRun) : Prop := Ends (Fault.of? (r.output.mapError (·.fault))) r.log

theorem inOrder_ends {Ran : Nat → ScopeRun → Prop} (hran : ∀ i r, Ran i r → EndsAs r) {i : Nat}
    {runs : List ScopeRun} {outputs : Except Fault (List Json)} {log : Log}
    (h : InOrder Ran i runs outputs log) : Ends (Fault.of? outputs) log := by
  induction h with
  | done i => exact .nil
  | unready i fault => exact .fault fault
  | @failed i r fault state hr hout =>
    have hends := hran i r hr
    rw [EndsAs, hout] at hends
    exact hends
  | @next i r v rest outputs log hr hout _ ih =>
    have hends := hran i r hr
    rw [EndsAs, hout] at hends
    have hsame : Fault.of? (outputs.map (v :: ·)) = Fault.of? outputs := by
      cases outputs <;> rfl
    rw [hsame]
    exact hends.go_on ih

theorem Attempted.ends {Ran : Nat → ScopeRun → Prop} {recorded : List (List String) → Bool → Event}
    (hran : ∀ i r, Ran i r → EndsAs r)
    (hquiet : ∀ paths completed, (recorded paths completed).Quiet)
    (hrecorded : ∀ paths completed, (recorded paths completed).NoFault)
    {result : Except Fault Json} {log : Log} (h : Attempted Ran recorded result log) :
    Ends (Fault.of? result) log := by
  cases h with
  | unready fault => exact .fault fault
  | failed hruns => exact (inOrder_ends hran hruns).record (hquiet _ _) (hrecorded _ _)
  | finished result hruns =>
    exact ((inOrder_ends hran hruns).record (hquiet _ _) (hrecorded _ _)).go_on (ends_raised result)

theorem Policed.ends {p : Policy} {Tried : Except Fault Json → Log → Prop}
    (htried : ∀ result log, Tried result log → Ends (Fault.of? result) log)
    {result : Except Fault Step} {log : Log} (h : Policed p Tried result log) :
    Ends (Fault.of? result) log := by
  induction h with
  | succeeded h => exact htried _ _ h
  | stood h => exact htried _ _ h
  | caught document h hcatch _ => exact (htried _ _ h).caught hcatch
  | overruled h hcatch _ => exact ((htried _ _ h).caught hcatch).go_on (.fault _)
  | again h hcatch _ ih =>
    exact .go_on ((htried _ _ h).caught hcatch) (.after (by trivial) ih)

theorem Stepped.ends {maxSteps : Nat} {label : String} {st : State} {result : Except Fault Step}
    {log : Log}
    (hinner : ∀ inner ∈ st.kind.scopes, ∀ label r, inner.Ran maxSteps label r → EndsAs r)
    (h : Stepped maxSteps label st result log) : Ends (Fault.of? result) log := by
  cases h with
  | simple _ => exact ends_raised result
  | task raw h =>
    refine h.ends fun result log hlog => ?_
    rw [hlog]
    exact ends_raised result
  | @map name comment spec processor _ _ raw h =>
    refine h.ends fun result log h =>
      h.ends (fun i r hr => ?_) (by simp [Event.Quiet]) (by simp [Event.NoFault])
    exact hinner processor (List.mem_singleton.mpr rfl) _ r hr
  | @parallel name comment spec branches _ _ raw h =>
    refine h.ends fun result log h =>
      h.ends (fun i r ⟨b, hb, hr⟩ => ?_) (by simp [Event.Quiet]) (by simp [Event.NoFault])
    exact hinner b (List.mem_of_getElem? hb) _ r hr

theorem walked_ends {m : Machine} {maxSteps : Nat} {label : String} {left : Nat}
    {current : String} {last : Option String} {document : Json} {result : Except Located Json}
    {path : List String} {log : Log}
    (hstepped : ∀ st ∈ m.states, ∀ result log, Stepped maxSteps label st result log →
      Ends (Fault.of? result) log)
    (h : Walked m maxSteps label left current last document result path log) :
    Ends (Fault.of? (result.mapError (·.fault))) log := by
  induction h with
  | ceiling current last document => exact .fault _
  | @lost left current last document hst =>
    exact .after (by trivial) (.fault _)
  | failed left last document hst hlog =>
    exact .after (by trivial) (hstepped _ (Machine.mem_of_state? hst) _ _ hlog)
  | finished left last document hst hlog =>
    exact .after (by trivial) (hstepped _ (Machine.mem_of_state? hst) _ _ hlog)
  | moved last document hst hlog _ ih =>
    have hends := hstepped _ (Machine.mem_of_state? hst) _ _ hlog
    exact .go_on (.after (by trivial) hends) ih

theorem walked_located {m : Machine} {maxSteps : Nat} {label : String} {left : Nat}
    {current : String} {last : Option String} {document : Json} {result : Except Located Json}
    {path : List String} {log : Log}
    (h : Walked m maxSteps label left current last document result path log) :
    ∀ fault state, result = .error ⟨fault, state⟩ →
      state = path.getLast?.getD (last.getD current) ∨
        Event.lost state ∈ log ∧ fault = .missingState state ∧ m.contains state = false := by
  induction h with
  | ceiling current last document =>
    rintro fault state ⟨rfl⟩
    exact .inl rfl
  | @lost left current last document hst =>
    rintro fault state ⟨rfl⟩
    refine .inr ⟨List.mem_cons_self .., rfl, ?_⟩
    by_contra hcontains
    obtain ⟨st, hst'⟩ := Machine.contains_iff_state?.mp (by simpa using hcontains)
    rw [hst] at hst'
    cases hst'
  | failed left last document hst hlog =>
    rintro fault state ⟨rfl⟩
    exact .inl rfl
  | finished left last document hst hlog => exact nofun
  | @moved left current last document st target output log rest result path hst hlog _ ih =>
    intro fault state hresult
    rcases ih fault state hresult with hstate | ⟨hlost, hfault⟩
    · refine .inl ?_
      rw [hstate, List.getLast?_cons]
      rfl
    · exact .inr ⟨List.mem_append_right _ hlost, hfault⟩

end Run

theorem Machine.run_ends {m : Machine} {maxSteps : Nat} {label : String} {r : ScopeRun}
    (h : m.Ran maxSteps label r) : Run.EndsAs r := by
  refine Machine.Ran.induction (P := fun _ _ r => Run.EndsAs r) ?_ h
  intro m label r document ih hwalked
  exact Run.walked_ends (fun st hst result log hlog => hlog.ends (ih st hst)) hwalked

theorem Fault.of?_located {α : Type} {result : Except Located α} {fault : Fault}
    (h : Fault.of? (result.mapError (·.fault)) = some fault) :
    ∃ state, result = .error ⟨fault, state⟩ := by
  cases result with
  | ok a => cases h
  | error located =>
    cases h
    exact ⟨located.state, rfl⟩

theorem Log.nothing_of_quiet {log : Log} (h : ∀ e ∈ log, e.Quiet) :
    log.retries = [] ∧ log.visits = [] := by
  constructor
  · refine List.filterMap_eq_nil_iff.mpr fun e he => ?_
    cases e with
    | retry record => exact (h _ he).elim
    | _ => rfl
  · refine List.filterMap_eq_nil_iff.mpr fun e he => ?_
    cases e with
    | visit record => exact (h _ he).elim
    | _ => rfl

/-- The state at which a fault ends an execution: the last one of its path, unless the execution is
sent to a state that the machine does not have, as no loaded machine sends one. -/
theorem Machine.execution_located {m : Machine} {input : Json} {engine : MockEngine}
    {options : ExecutionOptions} {fault : Fault} {state : String}
    (h : (m.execution input engine options).output = .error ⟨fault, state⟩) :
    state = (m.execution input engine options).path.getLast?.getD m.startAt ∨
      fault = .missingState state ∧ m.contains state = false ∧ ∀ v, Machine.ofJson v ≠ .ok m := by
  rcases Run.walked_located (m.execution_walked input engine options) fault state h with
    hstate | ⟨hlost, hfault, hcontains⟩
  · exact .inl hstate
  · refine .inr ⟨hfault, hcontains, fun v hv => ?_⟩
    have hsound := Machine.run_sound (Machine.closed_of_ofJson hv)
      (m.execution_ran input engine options)
    exact hsound.events _ hlost

/-- A fatal fault that comes up anywhere in an execution ends it: nothing is retried or entered
after it, and the trace reports it at the last state of the path. Each failed execution ends with a
fault that came up, and exactly the failed ones report an error. -/
theorem Machine.execution_faults (m : Machine) (input : Json) (engine : MockEngine)
    (options : ExecutionOptions) :
    let log := (m.execution input engine options).log
    let trace := (m.execute input engine options).1
    (∀ before fault after, log = before ++ Event.fault fault :: after → fault.catchable = false →
      Log.retries after = [] ∧ Log.visits after = [] ∧
        trace.success = false ∧ trace.output = .null ∧
        ∃ state, trace.error = some ⟨fault.error, fault.cause, some state⟩ ∧
          (state = trace.executionPath.getLast?.getD m.startAt ∨
            fault = .missingState state ∧ m.contains state = false ∧
              ∀ v, Machine.ofJson v ≠ .ok m)) ∧
      (trace.success = false → ∃ before fault after state,
        log = before ++ Event.fault fault :: after ∧
          Log.retries after = [] ∧ Log.visits after = [] ∧
          trace.error = some ⟨fault.error, fault.cause, some state⟩) ∧
      (trace.error.isSome = true ↔ trace.success = false) := by
  intro log trace
  have hends := Machine.run_ends (m.execution_ran input engine options)
  have htrace : trace = (m.execution input engine options).trace := rfl
  refine ⟨?_, ?_, ScopeRun.trace_error_isSome_iff _⟩
  · intro before fault after hlog hfatal
    have hmem : Event.fault fault ∈ log := by
      rw [hlog]
      exact List.mem_append_right _ (List.mem_cons_self ..)
    obtain ⟨state, hout⟩ := Fault.of?_located (hends.fatal fault hmem hfatal)
    have hquiet : ∀ e ∈ after, e.Quiet := by
      have hpair : log.Pairwise fun a b => a.Fatal → b.Quiet := hends.quiet
      rw [hlog] at hpair
      have hrest := (List.pairwise_append.mp hpair).2.1
      exact fun e he => (List.pairwise_cons.mp hrest).1 e he hfatal
    obtain ⟨hretries, hvisits⟩ := Log.nothing_of_quiet hquiet
    obtain ⟨hsuccess, houtput, herror⟩ := ScopeRun.trace_of_error _ hout
    refine ⟨hretries, hvisits, hsuccess, houtput, state, herror, ?_⟩
    rw [htrace, ScopeRun.trace_executionPath]
    exact Machine.execution_located hout
  · intro hfailed
    cases hout : (m.execution input engine options).output with
    | ok output =>
      have hsuccess : trace.success = true := by
        rw [htrace]
        unfold ScopeRun.trace
        rw [hout]
        rfl
      rw [hsuccess] at hfailed
      cases hfailed
    | error located =>
      obtain ⟨fault, state⟩ := located
      obtain ⟨before, after, hlog, hquiet⟩ := hends.ending fault (by rw [hout]; rfl)
      obtain ⟨hretries, hvisits⟩ := Log.nothing_of_quiet hquiet
      exact ⟨before, fault, after, state, hlog, hretries, hvisits,
        (ScopeRun.trace_of_error _ hout).2.2⟩

/-- Iterations that never end, in a Map state that catches everything. -/
def endlessInside : Json :=
  .obj [
    ("StartAt", .str "Each"),
    ("States", .obj [
      ("Each", .obj [
        ("Catch", .arr [.obj [
          ("ErrorEquals", .arr [.str "States.ALL"]), ("Next", .str "Rescue")]]),
        ("End", .bool true),
        ("ItemProcessor", .obj [
          ("StartAt", .str "Spin"),
          ("States", .obj [("Spin", .obj [("Next", .str "Spin"), ("Type", .str "Pass")])])]),
        ("Type", .str "Map")]),
      ("Rescue", .obj [("Type", .str "Succeed")])])]

/-- The machine that is read from the document. -/
def endless : Machine :=
  ⟨none, "Each", none, [
    ⟨"Each", none, .map ⟨{}, .whole, none, none, none, .inline, none, none, none, none, [],
        [⟨["States.ALL"], "Rescue", .whole⟩], .finish⟩
      ⟨none, "Spin", none, [⟨"Spin", none, .pass ⟨{}, .whole, none, none, .next "Spin"⟩⟩]⟩⟩,
    ⟨"Rescue", none, .succeed ⟨{}⟩⟩]⟩

theorem ofJson_endlessInside : Machine.ofJson endlessInside = .ok endless := by cbv

theorem Machine.execution_faults_inside :
    ∃ m, Machine.ofJson endlessInside = .ok m ∧
      let options : ExecutionOptions := { maxSteps := 2, executionName := some "run" }
      let trace := (m.execute (.arr [.null, .null]) { config := {} } options).1
      trace.executionPath = ["Each"] ∧ trace.success = false ∧ trace.output = .null ∧
        trace.error = some
          ⟨"ExecutionLimitExceeded", some "exceeded maximum step count (2)", some "Each"⟩ := by
  let options : ExecutionOptions := { maxSteps := 2, executionName := some "run" }
  let fault : Fault := .tooManySteps 2
  let r := endless.execution (.arr [.null, .null]) { config := {} } options
  obtain ⟨hpath, hfaults⟩ : r.trace.executionPath = ["Each"] ∧
      (r.log.filterMap fun | .fault f => some f | _ => none) = [fault] := by
    decide +kernel
  obtain ⟨event, hevent, hfault⟩ := List.mem_filterMap.mp
    (show fault ∈ _ by rw [hfaults]; exact List.mem_singleton.mpr rfl)
  cases event <;> cases hfault
  obtain ⟨before, after, hlog⟩ := List.append_of_mem hevent
  obtain ⟨-, -, hsuccess, houtput, state, herror, hstate⟩ :=
    (Machine.execution_faults endless (.arr [.null, .null]) { config := {} } options).1
      before fault after hlog rfl
  refine ⟨endless, ofJson_endlessInside, hpath, hsuccess, houtput, ?_⟩
  rcases hstate with hlast | ⟨-, -, hloaded⟩
  · have hend : (endless.execute (.arr [.null, .null]) { config := {} } options).1.executionPath =
        ["Each"] := hpath
    rw [hend] at hlast
    rw [herror, hlast]
    rfl
  · exact (hloaded _ ofJson_endlessInside).elim

end StateCheck
