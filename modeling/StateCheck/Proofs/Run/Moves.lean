import StateCheck.Proofs.Run.Conservation
/-!
The moves of an execution at the top level.

Each record of the top level is followed by that of the state which it decides for
(`Machine.execution_moves`). So the pairs of neighbours on the path of an execution that begin with
a Choice state are the decisions of the Choice states (`Machine.took_iff`).
-/
namespace StateCheck
set_option autoImplicit false

/-- What a machine is executed with. -/
structure Setup where
  input : Json
  engine : MockEngine
  options : ExecutionOptions

namespace Setup

def context (x : Setup) : Context :=
  (Context.start x.options x.input x.options.entropy).1

end Setup

namespace Machine

def traceOf (m : Machine) (x : Setup) : ExecutionTrace := (m.execute x.input x.engine x.options).1

def topOf (m : Machine) (x : Setup) : List StateExecution :=
  (m.traceOf x).stateExecutions.filter (·.scope == "")

/-- The state of a record, run on its input, moves to the state and with the input of another. -/
def Decides (m : Machine) (maxSteps : Nat) (context : Context) (v w : StateExecution) : Prop :=
  ∃ st s, m.state? v.state = some st ∧
    (st.kind.run maxSteps st.name context "" v.input s).result = .ok (.next w.state w.input)

/-- In the execution a Choice state of the top level decides for a target, which gets its output and
is visited next. -/
def Took (m : Machine) (x : Setup) (choice target : String) : Prop :=
  ∃ v w comment spec s, [v, w] <:+: m.topOf x ∧ v.state = choice ∧ w.state = target ∧
    m.state? choice = some ⟨choice, comment, .choice spec⟩ ∧
    (Run.choice choice spec x.context v.input s).result = .ok (.next target w.input)

end Machine

namespace Run

theorem run_below (maxSteps : Nat) (context : Context) (document : Json) (s : Session)
    (st : State) : (st.kind.run maxSteps st.name context "" document s).log.Below :=
  stepped_below (fun _ _ _ hlabel _ hr => Machine.run_below hlabel hr)
    (kind_stepped maxSteps "" context document st s)

theorem walk_moves (m : Machine) (maxSteps : Nat) (context : Context) (left : Nat)
    (current : String) (last : Option String) (document : Json) (s : Session) :
    let visits := (m.walk maxSteps context "" left current last document s).log.topVisits
    visits.IsChain (m.Decides maxSteps context) ∧
      ∀ v ∈ visits.head?, v.state = current ∧ v.input = document := by
  -- The first record of the rest is carried along, for the state before decides for it.
  induction left generalizing current last document s with
  | zero =>
    rw [Machine.walk_zero]
    exact ⟨.nil, nofun⟩
  | succ left ih =>
    cases hst : m.state? current with
    | none =>
      rw [Machine.walk_of_missing hst]
      exact ⟨.nil, nofun⟩
    | some st =>
      have hbelow := run_below maxSteps context document s st
      cases hresult : (st.kind.run maxSteps st.name context "" document s).result with
      | error fault =>
        rw [Machine.walk_of_error hst hresult, Log.topVisits_visit rfl hbelow]
        exact ⟨.singleton _, by simp⟩
      | ok step =>
        cases step with
        | finish output =>
          rw [Machine.walk_of_finish hst hresult, Log.topVisits_visit rfl hbelow]
          exact ⟨.singleton _, by simp⟩
        | next target output =>
          rw [Machine.walk_of_next hst hresult]
          obtain ⟨hchain, hhead⟩ := ih target (some current) output
            (st.kind.run maxSteps st.name context "" document s).session
          dsimp only
          rw [Log.topVisits_append, Log.topVisits_visit rfl hbelow, List.singleton_append]
          refine ⟨List.isChain_cons.mpr ⟨fun w hw => ?_, hchain⟩, by simp⟩
          obtain ⟨hstate, hinput⟩ := hhead w hw
          exact ⟨st, s, hst, by rw [hstate, hinput]; exact hresult⟩

end Run

namespace Machine

theorem topOf_eq (m : Machine) (x : Setup) :
    m.topOf x = (m.execution x.input x.engine x.options).log.topVisits := by
  rw [topOf, traceOf, execute, ScopeRun.trace_stateExecutions]
  rfl

theorem map_state_topOf (m : Machine) (x : Setup) :
    (m.topOf x).map (·.state) = (m.traceOf x).executionPath := by
  rw [topOf_eq, traceOf, execute, ScopeRun.trace_executionPath]
  exact (m.execution_handover x.input x.engine x.options).1

theorem execution_moves (m : Machine) (x : Setup) :
    (m.topOf x).IsChain (m.Decides x.options.maxSteps x.context) := by
  rw [topOf_eq]
  have hwalk := Run.walk_moves m x.options.maxSteps x.context x.options.maxSteps m.startAt none
    x.input ⟨x.engine, (Context.start x.options x.input x.options.entropy).2⟩
  rw [← run_eq_walk] at hwalk
  exact hwalk.1

theorem took_iff {m : Machine} {x : Setup} {choice target : String} :
    m.Took x choice target ↔ [choice, target] <:+: (m.traceOf x).executionPath ∧
      ∃ comment spec, m.state? choice = some ⟨choice, comment, .choice spec⟩ := by
  rw [← map_state_topOf, List.infix_map_iff]
  constructor
  · rintro ⟨v, w, comment, spec, s, hpair, rfl, rfl, hst, -⟩
    exact ⟨⟨[v, w], hpair, rfl⟩, comment, spec, hst⟩
  · rintro ⟨⟨visits, hpair, hvisits⟩, comment, spec, hst⟩
    obtain ⟨v, w, rfl⟩ : ∃ v w, visits = [v, w] :=
      List.length_eq_two.mp (by simpa using (congrArg List.length hvisits).symm)
    simp only [List.map_cons, List.map_nil, List.cons.injEq, and_true] at hvisits
    obtain ⟨rfl, rfl⟩ := hvisits
    have hchain := List.IsChain.infix (m.execution_moves x) hpair
    obtain ⟨st, s, hst', hresult⟩ := List.isChain_pair.mp hchain
    obtain rfl : st = ⟨v.state, comment, .choice spec⟩ := by
      rw [hst] at hst'
      exact (Option.some.inj hst').symm
    refine ⟨v, w, comment, spec, s, hpair, rfl, rfl, hst, ?_⟩
    rwa [StateKind.run] at hresult

end Machine
end StateCheck
