import StateCheck.Machine.Basic
import StateCheck.Machine.DefinitionError
/-!
References between states.

`Machine.checkReferences` finds the first reference of a machine that names no state of its own
scope, going through the states in order and into the machines that they own.
-/
namespace StateCheck
set_option autoImplicit false

/-- The first target among those of a state that names no state of the scope. -/
def checkTargets (label : ScopeLabel) (scope : Machine) (state : String) (targets : List String) :
    Except DefinitionError Unit :=
  match targets.find? (fun target => !scope.contains target) with
  | some target => .error (.danglingTransition label state target)
  | none => .ok ()

mutual
/-- Whether the start and every transition of a scope, and of those inside it, lead to a state of
the same scope. -/
def Machine.checkReferences (label : ScopeLabel) : Machine → Except DefinitionError Unit
  | ⟨comment, startAt, timeoutSeconds, states⟩ =>
    let scope : Machine := ⟨comment, startAt, timeoutSeconds, states⟩
    if scope.contains startAt then checkStates label scope states
    else .error (.unknownStartAt label startAt)

def checkStates (label : ScopeLabel) (scope : Machine) : List State → Except DefinitionError Unit
  | [] => .ok ()
  | ⟨name, comment, kind⟩ :: rest => do
    checkTargets label scope name (State.successors ⟨name, comment, kind⟩)
    kind.checkInner name
    checkStates label scope rest

def StateKind.checkInner (name : String) : StateKind → Except DefinitionError Unit
  | .map _ processor => processor.checkReferences (.processor name)
  | .parallel _ branches => checkBranches name 0 branches
  | .pass _ | .task _ | .choice _ | .wait _ | .succeed _ | .fail _ => .ok ()

def checkBranches (name : String) (index : Nat) : List Machine → Except DefinitionError Unit
  | [] => .ok ()
  | m :: rest => do
    m.checkReferences (.branch name index)
    checkBranches name (index + 1) rest
end

end StateCheck
