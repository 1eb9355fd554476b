import StateCheck.Machine.Basic
/-!
States at every depth of a machine, and what they have evaluated and answered from outside.

`Machine.everyState` lists the states of a machine with those of all machines inside it. A state
renders its templates (`StateKind.templates`) and may ask the mock engine (`StateKind.asks`).
-/
namespace StateCheck
set_option autoImplicit false

/-! ## States by depth -/

mutual
/-- The states of a machine at every depth, each before those inside it. -/
def Machine.everyState : Machine → List State
  | ⟨_, _, _, states⟩ => statesOfStates states

def statesOfStates : List State → List State
  | [] => []
  | ⟨name, comment, kind⟩ :: rest =>
    ⟨name, comment, kind⟩ :: kind.innerStates ++ statesOfStates rest

def StateKind.innerStates : StateKind → List State
  | .map _ processor => processor.everyState
  | .parallel _ branches => statesOfMachines branches
  | .pass _ | .task _ | .choice _ | .wait _ | .succeed _ | .fail _ => []

def statesOfMachines : List Machine → List State
  | [] => []
  | m :: rest => m.everyState ++ statesOfMachines rest
end

theorem Machine.everyState_eq (m : Machine) : m.everyState = statesOfStates m.states := by
  cases m
  rw [Machine.everyState]

theorem subset_statesOfStates {states : List State} {st : State} (hst : st ∈ states) :
    st :: st.kind.innerStates ⊆ statesOfStates states := by
  induction states with
  | nil => cases hst
  | cons first rest ih =>
    obtain ⟨name, comment, kind⟩ := first
    rw [statesOfStates]
    rcases List.mem_cons.mp hst with rfl | hst
    · exact List.subset_append_left _ _
    · exact List.Subset.trans (ih hst) (List.subset_append_right _ _)

theorem everyState_subset_statesOfMachines {machines : List Machine} {inner : Machine}
    (hinner : inner ∈ machines) : inner.everyState ⊆ statesOfMachines machines := by
  induction machines with
  | nil => cases hinner
  | cons first rest ih =>
    rw [statesOfMachines]
    rcases List.mem_cons.mp hinner with rfl | hinner
    · exact List.subset_append_left _ _
    · exact List.Subset.trans (ih hinner) (List.subset_append_right _ _)

theorem Machine.mem_everyState {m : Machine} {st : State} (hst : st ∈ m.states) :
    st ∈ m.everyState := by
  rw [m.everyState_eq]
  exact subset_statesOfStates hst (List.mem_cons_self ..)

theorem Machine.everyState_subset {m inner : Machine} {st : State} (hst : st ∈ m.states)
    (hinner : inner ∈ st.kind.scopes) : inner.everyState ⊆ m.everyState := by
  intro s hs
  rw [m.everyState_eq]
  refine subset_statesOfStates hst (List.mem_cons_of_mem _ ?_)
  obtain ⟨name, comment, kind⟩ := st
  cases kind with
  | map spec processor =>
    obtain rfl := List.mem_singleton.mp hinner
    rw [StateKind.innerStates]
    exact hs
  | parallel spec branches =>
    rw [StateKind.innerStates]
    exact everyState_subset_statesOfMachines hinner hs
  | _ => cases hinner

/-! ## Templates and calls -/

/-- The template of a result writer for where it writes. -/
def writerTemplate? (writer : Json) : Option Json :=
  (writer.get? "Parameters").or (writer.get? "Arguments")

namespace StateKind

/-- The templates that a state itself may render. -/
def templates : StateKind → List Json
  | pass s => s.parameters.toList
  | task s => s.parameters.toList ++ s.resultSelector.toList
  | map s _ =>
    (s.itemBatcher.bind (·.batchInput)).toList ++ s.itemSelector.toList ++
      (s.resultWriter.bind writerTemplate?).toList ++ s.resultSelector.toList
  | parallel s _ => s.parameters.toList ++ s.resultSelector.toList
  | choice _ | wait _ | succeed _ | fail _ => []

/-- Whether a state asks the mock engine: tasks do, and Map states that have their items read. -/
def asks : StateKind → Bool
  | task _ => true
  | map s _ => s.itemReader.isSome
  | _ => false

end StateKind
end StateCheck
