import StateCheck.Proofs.Mock.Overrides
import StateCheck.Proofs.Run.Isolation
/-!
The rules that an execution reads.

A state asks the mock engine under its own name, and the engine answers from the first rule of the
name. So configurations with the same first rules for the states that ask lead to the same execution
(`Machine.execution_of_agreesOn`), whatever their other rules are. Together with the first rules of
a configuration under overrides this says what overrides do to an execution
(`MockConfig.mergedWith_overrides`).
-/
namespace StateCheck
set_option autoImplicit false

/-- The configurations have the same first rule for every state of the machine, at any depth, that
asks the mock engine. -/
def MockConfig.AgreesOn (config config' : MockConfig) (m : Machine) : Prop :=
  ∀ st ∈ m.everyState, st.kind.asks = true → config'.ruleFor? st.name = config.ruleFor? st.name

/-- A run beside the same run with another configuration, as far as the two have the same first
rules. -/
def Simulation.reruled (config config' : MockConfig) (maxSteps : Nat) : Simulation where
  Beside s s' := s.engine.config = config ∧ s' = { s with engine.config := config' }
  Traced := True
  Cut _ := False
  low := maxSteps
  high := maxSteps
  Rendered _ := True
  Asked name := config'.ruleFor? name = config.ruleFor? name
  low_le_high := Nat.le_refl _
  cut_of_ceiling := uncut_of_ceiling maxSteps
  fatal_of_cut := fatal_of_uncut
  draw docs t _ := by
    rintro s _ ⟨hs, rfl⟩
    unfold Process.draw
    dsimp only
    cases Template.render docs t s.entropy with
    | error e => exact .same rfl ⟨hs, rfl⟩ fun _ => rfl
    | ok r => exact .same rfl ⟨hs, rfl⟩ fun _ => rfl
  call input name hname := by
    rintro s _ ⟨hs, rfl⟩
    refine .same ?_ ⟨hs, rfl⟩ fun _ => rfl
    simp only [Process.call, MockEngine.resolve, MockEngine.callCount, hs, hname]

theorem ScopeRun.trace_eq {r r' : ScopeRun} (houtput : r'.output = r.output)
    (hpath : r'.path = r.path) (hlog : r'.log = r.log) : r'.trace = r.trace := by
  unfold trace
  rw [houtput, hpath, hlog]

theorem Machine.execution_of_agreesOn {m : Machine} {config config' : MockConfig}
    (h : config.AgreesOn config' m) (input : Json) (exhaustion : Exhaustion) (calls : CallCounts)
    (options : ExecutionOptions) :
    let r := m.execution input ⟨config, exhaustion, calls⟩ options
    let r' := m.execution input ⟨config', exhaustion, calls⟩ options
    r'.trace = r.trace ∧ r'.session.engine.calls = r.session.engine.calls := by
  intro r r'
  have hscopes := (Simulation.reruled config config' options.maxSteps).scopes_run m
    fun st hst => ⟨fun _ _ => trivial, h st hst⟩
  have hruns : (Simulation.reruled config config' options.maxSteps).ScopeRuns r r' :=
    hscopes _ _ _ _ _ _ (fun _ => rfl) ⟨rfl, rfl⟩
  cases hruns with
  | cut _ hcut _ => exact hcut.elim
  | same houtput hpath hsession hlog =>
    refine ⟨ScopeRun.trace_eq houtput hpath (hlog trivial), ?_⟩
    rw [hsession.2]

namespace MockConfig

/-- Under overrides the first rule of a state is the last override of the state, else the rule that
it had. States that are not overridden keep all their rules in order, and new ones follow in the
order of their first overrides; the same overrides once more change nothing. And configurations
that agree on the states of a machine that ask lead to the same trace of it. -/
theorem mergedWith_overrides (base : MockConfig) (overrides : List MockRule) :
    let merged := base.mergedWith overrides
    (∀ state, merged.ruleFor? state =
      (overrides.findRev? (·.state == state)).or (base.ruleFor? state)) ∧
    (merged.mocks.filter (·.state ∉ statesOf overrides) =
      base.mocks.filter (·.state ∉ statesOf overrides)) ∧
    statesOf merged.mocks = statesOf base.mocks ++
      ((statesOf overrides).filter (· ∉ statesOf base.mocks)).eraseDups ∧
    merged.mergedWith overrides = merged ∧
    ∀ (m : Machine) (config config' : MockConfig), config.AgreesOn config' m →
      ∀ (exhaustion : Exhaustion) (input : Json) (options : ExecutionOptions),
        (m.execute input { config := config', exhaustion } options).1 =
          (m.execute input { config, exhaustion } options).1 := by
  refine ⟨fun state => find?_putRules overrides base.mocks state, ?_,
    statesOf_putRules overrides base.mocks, ?_, ?_⟩
  · refine filter_putRules (p := fun state => decide (state ∉ statesOf overrides)) ?_
    intro rule hrule
    have hmem : rule.state ∈ statesOf overrides := List.mem_map_of_mem hrule
    simp [hmem]
  · rw [mergedWith_eq, mergedWith_eq, putRules_putRules]
  · intro m config config' h exhaustion input options
    exact (Machine.execution_of_agreesOn h input exhaustion [] options).1

/-- Two rules for the greeting, of which the second one is never asked, and a rule for another
state. -/
def greetingTwice : MockConfig where
  mocks := [⟨"Greet", none, .fixed (.str "first")⟩, ⟨"Log", none, .fixed .null⟩,
    ⟨"Greet", some 5, .fixed (.str "second")⟩]

/-- Two overrides of the greeting around one of a state without a rule. -/
def greetingOverrides : List MockRule :=
  [⟨"Greet", none, .fixed .null⟩, ⟨"Mail", none, .fixed .null⟩,
    ⟨"Greet", none, .fixed (.str "hello")⟩]

/-- The last override of the greeting alone does the same to a machine that only greets. -/
theorem mergedWith_overrides_greeting :
    let merged := greetingTwice.mergedWith greetingOverrides
    let alone : MockConfig := { mocks := [⟨"Greet", none, .fixed (.str "hello")⟩] }
    merged.ruleFor? "Greet" = some ⟨"Greet", none, .fixed (.str "hello")⟩ ∧
      statesOf merged.mocks = ["Greet", "Log", "Greet", "Mail"] ∧
      merged.mergedWith greetingOverrides = merged ∧
      merged.AgreesOn alone greeting ∧
      (greeting.execute .null { config := alone } {}).1 =
        (greeting.execute .null { config := merged } {}).1 := by
  intro merged alone
  obtain ⟨hrule, -, hstates, htwice, hexecute⟩ :=
    mergedWith_overrides greetingTwice greetingOverrides
  have hgreet : merged.ruleFor? "Greet" = some ⟨"Greet", none, .fixed (.str "hello")⟩ :=
    (hrule "Greet").trans rfl
  have hagrees : merged.AgreesOn alone greeting := by
    intro st hst hasks
    obtain rfl := List.mem_singleton.mp hst
    rw [hgreet]
    rfl
  refine ⟨hgreet, hstates.trans ?_, htwice, hagrees,
    hexecute greeting merged alone hagrees .repeatLast .null {}⟩
  decide

end MockConfig
end StateCheck
