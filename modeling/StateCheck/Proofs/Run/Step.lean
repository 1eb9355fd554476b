import StateCheck.Proofs.Machine.Closed
import StateCheck.Run.Interpreter
/-!
One step of a run.

The equations of a walk through a scope by what its next state comes to (`Machine.walk`), and those
of inner scopes in order by what the first of them comes to.
-/
namespace StateCheck
set_option autoImplicit false

/-! ## Runs by name -/

theorem lookup_runStates (maxSteps : Nat) (name : String) (states : List State) :
    (runStates maxSteps states).lookup name =
      (states.find? (·.name == name)).map fun st => st.kind.run maxSteps st.name := by
  induction states with
  | nil => rw [runStates]; rfl
  | cons st rest ih =>
    obtain ⟨own, comment, kind⟩ := st
    rw [runStates, List.lookup_cons, List.find?_cons, ih]
    by_cases h : own = name
    · subst h; simp
    · have h1 : (own == name) = false := by simpa using h
      have h2 : (name == own) = false := by simpa using Ne.symm h
      simp only [h1, h2]

theorem runMachines_eq_map (maxSteps : Nat) (machines : List Machine) :
    runMachines maxSteps machines = machines.map (·.run maxSteps) := by
  induction machines with
  | nil => rw [runMachines]; rfl
  | cons m rest ih => rw [runMachines, ih, List.map_cons]

/-! ## Scopes -/

namespace Machine

def walk (m : Machine) (maxSteps : Nat) (context : Context) (label : String) (left : Nat)
    (current : String) (last : Option String) (document : Json) (s : Session) : ScopeRun :=
  Run.walk (runStates maxSteps m.states) maxSteps context label left current last document s

theorem run_eq_walk (m : Machine) (maxSteps : Nat) (context : Context) (label : String)
    (input : Json) (s : Session) :
    m.run maxSteps context label input s =
      m.walk maxSteps context label maxSteps m.startAt none input s := by
  cases m
  rw [Machine.run]
  rfl

section Walk
variable {m : Machine} {maxSteps : Nat} {context : Context} {label : String} {left : Nat}
  {current : String} {last : Option String} {document : Json} {s : Session} {st : State}

theorem walk_zero : m.walk maxSteps context label 0 current last document s =
    ⟨.error ⟨.tooManySteps maxSteps, last.getD current⟩, [], [.fault (.tooManySteps maxSteps)],
      s⟩ := rfl

theorem lookup_runStates_of_missing (h : m.state? current = none) :
    (runStates maxSteps m.states).lookup current = none := by
  rw [lookup_runStates, show m.states.find? (·.name == current) = none from h, Option.map_none]

theorem lookup_runStates_of_state (h : m.state? current = some st) :
    (runStates maxSteps m.states).lookup current = some (st.kind.run maxSteps st.name) := by
  rw [lookup_runStates, show m.states.find? (·.name == current) = some st from h, Option.map_some]

theorem walk_of_missing (h : m.state? current = none) :
    m.walk maxSteps context label (left + 1) current last document s =
      ⟨.error ⟨.missingState current, current⟩, [],
        [.lost current, .fault (.missingState current)], s⟩ := by
  simp only [walk, Run.walk, lookup_runStates_of_missing h]

theorem walk_of_error (h : m.state? current = some st) {fault : Fault}
    (hresult : (st.kind.run maxSteps st.name context label document s).result = .error fault) :
    m.walk maxSteps context label (left + 1) current last document s =
      ⟨.error ⟨fault, current⟩, [current],
        .visit ⟨current, label, document, none⟩ ::
          (st.kind.run maxSteps st.name context label document s).log,
        (st.kind.run maxSteps st.name context label document s).session⟩ := by
  simp only [walk, Run.walk, lookup_runStates_of_state h, hresult]

theorem walk_of_finish (h : m.state? current = some st) {output : Json}
    (hresult : (st.kind.run maxSteps st.name context label document s).result =
      .ok (.finish output)) :
    m.walk maxSteps context label (left + 1) current last document s =
      ⟨.ok output, [current],
        .visit ⟨current, label, document, some output⟩ ::
          (st.kind.run maxSteps st.name context label document s).log,
        (st.kind.run maxSteps st.name context label document s).session⟩ := by
  simp only [walk, Run.walk, lookup_runStates_of_state h, hresult]

theorem walk_of_next (h : m.state? current = some st) {target : String} {output : Json}
    (hresult : (st.kind.run maxSteps st.name context label document s).result =
      .ok (.next target output)) :
    m.walk maxSteps context label (left + 1) current last document s =
      let a := st.kind.run maxSteps st.name context label document s
      let b := m.walk maxSteps context label left target (some current) output a.session
      ⟨b.output, current :: b.path,
        .visit ⟨current, label, document, some output⟩ :: a.log ++ b.log, b.session⟩ := by
  simp only [walk, Run.walk, lookup_runStates_of_state h, hresult]

theorem walk_path_of_some (h : m.state? current = some st) :
    ∃ rest, (m.walk maxSteps context label (left + 1) current last document s).path =
      current :: rest := by
  cases hresult : (st.kind.run maxSteps st.name context label document s).result with
  | error fault => exact ⟨[], by rw [walk_of_error h hresult]⟩
  | ok step =>
    cases step with
    | finish output => exact ⟨[], by rw [walk_of_finish h hresult]⟩
    | next target output => exact ⟨_, by rw [walk_of_next h hresult]⟩

end Walk

end Machine

/-! ## Inner scopes in order -/

namespace Run

section InOrder
variable {job : Session → SubRun} {rest : List (Session → SubRun)} {s : Session}

theorem inOrder_of_error {fault : Fault} (h : (job s).output = .error fault) :
    inOrder (job :: rest) s =
      ⟨.error fault, (job s).path.toList, (job s).log, (job s).session⟩ := by
  simp only [inOrder, h]

theorem inOrder_of_ok {v : Json} (h : (job s).output = .ok v) :
    inOrder (job :: rest) s =
      let b := inOrder rest (job s).session
      ⟨b.outputs.map (v :: ·), (job s).path.toList ++ b.paths, (job s).log ++ b.log,
        b.session⟩ := by
  simp only [inOrder, h]

end InOrder

end Run
end StateCheck
