import StateCheck.Proofs.Run.Simulation
import StateCheck.Proofs.Run.Turns
import StateCheck.Proofs.Template.Steady
/-!
Scopes that nothing outside them reaches.

What a scope reads of the session are the answers of the mock engine and the drawn values. Without
templates that draw and without rules that count calls, its output and its path depend on neither
(`Machine.run_isolated`), so that an iteration or branch comes to the same as alone.
-/
namespace StateCheck
set_option autoImplicit false

/-- The answers of the behavior depend on the number of the call. -/
def MockBehavior.isStateful : MockBehavior → Bool
  | stateful _ => true
  | fixed _ | conditional _ _ | error _ => false

/-- No rule answers by the number of the call. -/
def MockConfig.Stateless (rules : MockConfig) : Prop :=
  ∀ rule ∈ rules.mocks, rule.behavior.isStateful = false

/-- No template of the machine, at any depth, draws a value. -/
def Machine.Drawless (m : Machine) : Prop :=
  ∀ st ∈ m.everyState, ∀ t ∈ st.kind.templates, Template.draws t = false

/-! ## What a session is read for -/

theorem MockRule.outcome_of_stateless {behavior : MockBehavior} (h : behavior.isStateful = false)
    (exhaustion exhaustion' : Exhaustion) (state : String) (index index' : Nat) (input : Json) :
    outcome exhaustion' state behavior index' input =
      outcome exhaustion state behavior index input := by
  cases behavior with
  | stateful responses => cases h
  | _ => rfl

theorem MockConfig.Stateless.answer {rules : MockConfig} (hrules : rules.Stateless)
    (exhaustion exhaustion' : Exhaustion) (state : String) (index index' : Nat) (input : Json) :
    MockRule.answer exhaustion' state (rules.ruleFor? state) index' input =
      MockRule.answer exhaustion state (rules.ruleFor? state) index input := by
  cases hrule : rules.ruleFor? state with
  | none => rfl
  | some rule =>
    have hstateless := hrules rule (List.mem_of_find?_eq_some hrule)
    simp only [MockRule.answer,
      MockRule.outcome_of_stateless hstateless exhaustion exhaustion' state index index' input]

theorem Process.draw_of_steady {α : Type} {x : Eval α} (h : x.Steady) :
    ∃ r : Except EvalError α, Process.draw x = Process.eval r := by
  obtain ⟨r, hr⟩ := h
  refine ⟨r, funext fun s => ?_⟩
  unfold Process.draw
  rw [hr]
  cases r <;> rfl

/-- Runs of one machine under the same stateless rules, in sessions that are otherwise unrelated. -/
def Simulation.isolated {rules : MockConfig} (hrules : rules.Stateless) (maxSteps : Nat) :
    Simulation where
  Beside s s' := s.engine.config = rules ∧ s'.engine.config = rules
  Traced := False
  Cut _ := False
  low := maxSteps
  high := maxSteps
  Rendered t := Template.draws t = false
  Asked _ := True
  low_le_high := Nat.le_refl _
  cut_of_ceiling := uncut_of_ceiling maxSteps
  fatal_of_cut := fatal_of_uncut
  draw docs t ht := by
    obtain ⟨r, hr⟩ := Process.draw_of_steady (Template.steady_render docs t ht)
    rw [hr]
    intro s s' hs
    cases r with
    | error e => exact .same rfl hs False.elim
    | ok v => exact .same rfl hs False.elim
  call input name _ := by
    rintro s s' ⟨hs, hs'⟩
    refine .same ?_ ⟨hs, hs'⟩ False.elim
    simp only [Process.call, MockEngine.resolve, hs, hs']
    rw [hrules.answer]

/-- A run beside itself, for the rules that it leaves in place. -/
def Simulation.keptRules (rules : MockConfig) (maxSteps : Nat) : Simulation where
  Beside s s' := s' = s ∧ s.engine.config = rules
  Traced := False
  Cut _ := False
  low := maxSteps
  high := maxSteps
  Rendered _ := True
  Asked _ := True
  low_le_high := Nat.le_refl _
  cut_of_ceiling := uncut_of_ceiling maxSteps
  fatal_of_cut := fatal_of_uncut
  draw docs t _ := by
    intro s s' ⟨hsame, hs⟩
    subst hsame
    refine .same rfl ⟨rfl, ?_⟩ False.elim
    unfold Process.draw
    cases Template.render docs t s'.entropy with
    | error e => exact hs
    | ok r => exact hs
  call input name _ := by
    rintro s _ ⟨rfl, hs⟩
    exact .same rfl ⟨rfl, hs⟩ False.elim

theorem Machine.run_keeps_rules (m : Machine) {rules : MockConfig} (maxSteps : Nat)
    (context : Context) (label : String) (input : Json) {s : Session}
    (hs : s.engine.config = rules) :
    (m.run maxSteps context label input s).session.engine.config = rules := by
  have hscopes := (Simulation.keptRules rules maxSteps).scopes_run m
    fun st _ => ⟨fun _ _ => trivial, fun _ => trivial⟩
  cases hscopes context label label input s s (fun _ => rfl) ⟨rfl, hs⟩ with
  | cut _ hcut _ => exact hcut.elim
  | same _ _ hsession _ => exact hsession.2

namespace Run

theorem itemInput_keeps_rules {rules : MockConfig} (name : String) (spec : MapSpec)
    (context : Context) (effective : Json) (retryCount index : Nat) (item : Json) {s : Session}
    (hs : s.engine.config = rules) :
    (itemInput name spec context effective retryCount index item s).session.engine.config =
      rules := by
  unfold itemInput
  cases spec.itemSelector with
  | none => exact hs
  | some t =>
    have hdraw := (Simulation.keptRules rules 0).draw
      ⟨effective, (context.withMapItem index item).document name retryCount⟩ t trivial
    cases hdraw s s ⟨rfl, hs⟩ with
    | cut _ hcut => exact hcut.elim
    | same _ hsession _ => exact hsession.2

theorem iteration_keeps_rules {rules : MockConfig} (name : String) (spec : MapSpec)
    (processor : Machine) (maxSteps : Nat) (context : Context) (label : String) (effective : Json)
    (retryCount index : Nat) (item : Json) {s : Session} (hs : s.engine.config = rules) :
    (iteration name spec (processor.run maxSteps) context label effective retryCount index item
      s).session.engine.config = rules := by
  have hinput := itemInput_keeps_rules name spec context effective retryCount index item hs
  cases h : (itemInput name spec context effective retryCount index item s).result with
  | error fault =>
    rw [iteration_of_error h]
    exact hinput
  | ok document =>
    rw [iteration_of_ok h]
    exact processor.run_keeps_rules maxSteps _ _ _ hinput

end Run

/-! ## Isolation -/

section Isolation
variable {rules : MockConfig} (hrules : rules.Stateless) {scope : Machine}
  (hscope : scope.Drawless) (maxSteps : Nat)
include hrules hscope

theorem Machine.run_same (context : Context) (input : Json) (label label' : String) {s s' : Session}
    (hs : s.engine.config = rules) (hs' : s'.engine.config = rules) :
    (scope.run maxSteps context label' input s').output =
        (scope.run maxSteps context label input s).output ∧
      (scope.run maxSteps context label' input s').path =
        (scope.run maxSteps context label input s).path := by
  have hscopes := (Simulation.isolated hrules maxSteps).scopes_run scope
    fun st hst => ⟨hscope st hst, fun _ => trivial⟩
  cases hscopes context label label' input s s' False.elim ⟨hs, hs'⟩ with
  | cut _ hcut _ => exact hcut.elim
  | same houtput hpath _ _ => exact ⟨houtput, hpath⟩

theorem Run.ofScope_same (context : Context) (input : Json) (label label' : String) {s s' : Session}
    (hs : s.engine.config = rules) (hs' : s'.engine.config = rules) :
    let turn := SubRun.ofScope (scope.run maxSteps context label input s)
    let alone := scope.run maxSteps context label' input s'
    turn.output = alone.output.mapError (·.fault) ∧ turn.path = some alone.path := by
  obtain ⟨houtput, hpath⟩ :=
    Machine.run_same hrules hscope maxSteps context input label label' hs hs'
  exact ⟨by simp only [SubRun.ofScope, houtput], by simp only [SubRun.ofScope, hpath]⟩

end Isolation

/-- A scope without templates that draw, under rules that count no calls, comes to the same output
or fault along the same path in all sessions and under all labels. So an iteration comes to what its
item processor alone comes to on the input of its item, among whatever other iterations and in
whatever order; and a branch comes to what it comes to alone. -/
theorem Machine.run_isolated {rules : MockConfig} (hrules : rules.Stateless) {scope : Machine}
    (hscope : scope.Drawless) (maxSteps : Nat) :
    (∀ context input label label' s s', s.engine.config = rules → s'.engine.config = rules →
      (scope.run maxSteps context label' input s').output =
          (scope.run maxSteps context label input s).output ∧
        (scope.run maxSteps context label' input s').path =
          (scope.run maxSteps context label input s).path) ∧
    (∀ name spec context label effective retryCount (order : List (Nat × Json)) s (k : Nat) index
        item, s.engine.config = rules → order[k]? = some (index, item) →
      let jobs := Run.iterationJobs name spec (scope.run maxSteps) context label effective
        retryCount order
      let input := (Run.itemInput name spec context effective retryCount index item
        (Run.sessionBefore jobs s k)).result
      ∃ turn : Run.SubRun, (Run.turns jobs s)[k]? = some turn ∧
        (∀ fault, input = .error fault → turn.output = .error fault ∧ turn.path = none) ∧
        ∀ document, input = .ok document → ∀ label' s', s'.engine.config = rules →
          let alone := scope.run maxSteps (context.withMapItem index item) label' document s'
          turn.output = alone.output.mapError (·.fault) ∧ turn.path = some alone.path) ∧
    (∀ name (branches : List Machine) context label input s (k : Nat),
      s.engine.config = rules → branches[k]? = some scope →
      let jobs := Run.branchJobs name (runMachines maxSteps branches) context label input
      ∃ turn : Run.SubRun, (Run.turns jobs s)[k]? = some turn ∧
        ∀ label' s', s'.engine.config = rules →
          let alone := scope.run maxSteps context label' input s'
          turn.output = alone.output.mapError (·.fault) ∧ turn.path = some alone.path) := by
  refine ⟨fun context input label label' s s' =>
    run_same hrules hscope maxSteps context input label label', ?_, ?_⟩
  · intro name spec context label effective retryCount order s k index item hs hk jobs input
    -- What the turns before have left is unknown but for the rules.
    have hbefore : (Run.sessionBefore jobs s k).engine.config = rules := by
      refine Run.sessionBefore_keeps (P := fun s => s.engine.config = rules) ?_ hs k
      intro job hjob s hs
      obtain ⟨entry, -, rfl⟩ := List.mem_map.mp hjob
      exact Run.iteration_keeps_rules name spec scope maxSteps context label effective retryCount
        entry.1 entry.2 hs
    have hturn : (Run.turns jobs s)[k]? = some (Run.iteration name spec (scope.run maxSteps) context
        label effective retryCount index item (Run.sessionBefore jobs s k)) := by
      rw [Run.getElem?_turns]
      simp only [jobs, Run.iterationJobs, List.getElem?_map, hk, Option.map_some]
    refine ⟨_, hturn, fun fault hfault => ?_, fun document hdocument label' s' hs' => ?_⟩
    · rw [Run.iteration_of_error hfault]
      exact ⟨rfl, rfl⟩
    · have hinput := Run.itemInput_keeps_rules name spec context effective retryCount index item
        hbefore
      rw [Run.iteration_of_ok hdocument]
      exact Run.ofScope_same hrules hscope maxSteps _ _ _ _ hinput hs'
  · intro name branches context label input s k hs hk jobs
    have hbefore : (Run.sessionBefore jobs s k).engine.config = rules := by
      refine Run.sessionBefore_keeps (P := fun s => s.engine.config = rules) ?_ hs k
      intro job hjob s hs
      obtain ⟨b, -, index, rfl⟩ := Run.mem_branchJobs hjob
      exact b.run_keeps_rules maxSteps _ _ _ hs
    refine ⟨_, by rw [Run.getElem?_turns, Run.getElem?_branchJobs, hk]; rfl, ?_⟩
    intro label' s' hs'
    exact Run.ofScope_same hrules hscope maxSteps _ _ _ _ hbefore hs'

/-- A task that greets its input. -/
def greeting : Machine :=
  ⟨none, "Greet", none, [⟨"Greet", none, .task {
    io := {}
    resultPath := .whole
    resource := "call"
    parameters := some (.obj [("text.$", .str "States.Format('Hi \x7b\x7d', $)")])
    resultSelector := none
    timeoutSeconds := none
    timeoutSecondsPath := none
    heartbeatSeconds := none
    retry := []
    catchers := []
    transition := .finish }⟩]⟩

/-- Answers to the greeting of Ann and to others. -/
def greetingRules : MockConfig where
  mocks := [⟨"Greet", none, .conditional
    [⟨.obj [("text", .str "Hi Ann")], some (.str "known"), none⟩] (some (.str "unknown"))⟩]

/-- The iteration of the first item, run after that of the second and after other calls. -/
theorem Machine.run_isolated_greeting :
    greetingRules.Stateless ∧ greeting.Drawless ∧
      let context : Context := ⟨"run", "", .null, "StateMachine", none⟩
      let jobs := Run.iterationJobs "Each" Run.plainMap (greeting.run 1) context "" .null 0
        [(1, .str "Ben"), (0, .str "Ann")]
      let session : Session := ⟨{ config := greetingRules, calls := [("Greet", 5)] }, .seeded 3⟩
      ∃ turn : Run.SubRun, (Run.turns jobs session)[1]? = some turn ∧
        turn.output.toOption.bind Json.asString? = some "known" ∧ turn.path = some ["Greet"] := by
  let context : Context := ⟨"run", "", .null, "StateMachine", none⟩
  let session : Session := ⟨{ config := greetingRules, calls := [("Greet", 5)] }, .seeded 3⟩
  let fresh : Session := ⟨{ config := greetingRules }, .seeded 0⟩
  let alone := greeting.run 1 (context.withMapItem 0 (.str "Ann")) "" (.str "Ann") fresh
  have hrules : greetingRules.Stateless := by
    intro rule hrule
    obtain rfl := List.mem_singleton.mp hrule
    rfl
  have hscope : greeting.Drawless := by
    have htemplates : (greeting.everyState.all fun st =>
        st.kind.templates.all fun t => !Template.draws t) = true := by decide +kernel
    intro st hst t ht
    simpa using List.all_eq_true.mp (List.all_eq_true.mp htemplates st hst) t ht
  have houtput : (alone.output.mapError (·.fault)).toOption.bind Json.asString? = some "known" := by
    decide +kernel
  have hpath : alone.path = ["Greet"] := by decide +kernel
  obtain ⟨turn, hturn, -, hsame⟩ :=
    (Machine.run_isolated hrules hscope 1).2.1 "Each" Run.plainMap context "" .null 0
      [(1, .str "Ben"), (0, .str "Ann")] session 1 0 (.str "Ann") rfl rfl
  obtain ⟨hout, hwent⟩ := hsame (.str "Ann") rfl "" fresh rfl
  refine ⟨hrules, hscope, turn, hturn, ?_, ?_⟩
  · rw [hout]
    exact houtput
  · rw [hwent]
    exact congrArg some hpath

end StateCheck
