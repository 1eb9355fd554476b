import StateCheck.Json.Reader
import StateCheck.Machine.Fields
import StateCheck.Machine.Reference
/-!
Loading state machines from documents.

A scope is an object with `StartAt` and `States`; the states are loaded in the order of their names
and those that own machines load them in turn. `Machine.ofJson` then checks the references, so that
a machine it gives has no transition that leads nowhere.
-/
namespace StateCheck
set_option autoImplicit false

namespace Load

def inState {α : Type} (name : String) (load : Load α) : Except DefinitionError α :=
  load.mapError (DefinitionError.invalidState name)

/-- The machine that a Map state runs, under either of its names. -/
def processorField? (body : Json) : Option Json :=
  match body.get? "ItemProcessor" with
  | some v => some v
  | none => body.get? "Iterator"

theorem sizeOf_processorField_lt {body v : Json} (h : processorField? body = some v) :
    sizeOf v < sizeOf body := by
  unfold processorField? at h
  split at h
  · rename_i hv; cases h; exact Json.sizeOf_get?_lt hv
  · exact Json.sizeOf_get?_lt h

mutual
/-- A scope; `label` names it in errors. -/
def scope (label : ScopeLabel) (v : Json) : Except DefinitionError Machine :=
  match v.getString? "StartAt" with
  | none => .error (.missingField label "StartAt")
  | some startAt =>
    match _h : v.get? "States" with
    | some (.obj fields) => do
      let states ← states fields
      return { startAt, states, comment := v.getString? "Comment",
               timeoutSeconds := v.getNatural? "TimeoutSeconds" }
    | _ => .error (.missingField label "States")
termination_by (sizeOf v, 0)
decreasing_by
  apply Prod.Lex.left
  have := Json.sizeOf_get?_lt (by assumption)
  simp only [Json.obj.sizeOf_spec] at this
  omega

def states (fields : List (String × Json)) : Except DefinitionError (List State) :=
  match fields with
  | [] => .ok []
  | (name, body) :: rest => do
    let s ← state name body
    let more ← states rest
    return s :: more
termination_by (sizeOf fields, 0)
decreasing_by
  all_goals
    apply Prod.Lex.left
    simp only [List.cons.sizeOf_spec, Prod.mk.sizeOf_spec]
    omega

def state (name : String) (body : Json) : Except DefinitionError State :=
  if !body.isObject then .error (.invalidState name .notObject)
  else match body.getString? "Type" with
    | none => .error (.invalidState name .noType)
    | some typeName => do
      let kind ← stateKind name typeName body
      return { name, kind, comment := body.getString? "Comment" }
termination_by (sizeOf body, 2)

def stateKind (name typeName : String) (body : Json) : Except DefinitionError StateKind :=
  match typeName with
  | "Pass" => StateKind.pass <$> inState name (pass body)
  | "Task" => StateKind.task <$> inState name (task body)
  | "Choice" => StateKind.choice <$> inState name (choice body)
  | "Wait" => StateKind.wait <$> inState name (wait body)
  | "Succeed" => StateKind.succeed <$> inState name (succeed body)
  | "Fail" => .ok (.fail (fail body))
  | "Map" =>
    match _h : processorField? body with
    | none => .error (.invalidState name .noProcessor)
    | some processor => do
      let mode ← inState name (processorMode processor)
      let machine ← scope (.processor name) processor
      let spec ← inState name (map mode body)
      return .map spec machine
  | "Parallel" =>
    match _h : body.get? "Branches" with
    | some (.arr items) => do
      if items.isEmpty then .error (.invalidState name .emptyBranches)
      let machines ← branches name 0 items
      let spec ← inState name (parallel body)
      return .parallel spec machines
    | _ => .error (.invalidState name .noBranches)
  | other => .error (.unsupportedType name other)
termination_by (sizeOf body, 1)
decreasing_by
  · apply Prod.Lex.left
    exact sizeOf_processorField_lt (by assumption)
  · apply Prod.Lex.left
    have := Json.sizeOf_get?_lt (by assumption)
    simp only [Json.arr.sizeOf_spec] at this
    omega

/-- Branches in order, numbered from `index`. -/
def branches (name : String) (index : Nat) (items : List Json) :
    Except DefinitionError (List Machine) :=
  match items with
  | [] => .ok []
  | v :: rest => do
    let m ← scope (.branch name index) v
    let more ← branches name (index + 1) rest
    return m :: more
termination_by (sizeOf items, 0)
decreasing_by
  all_goals
    apply Prod.Lex.left
    simp only [List.cons.sizeOf_spec]
    omega
end

end Load

namespace Machine

/-- The machine of a document: another query language than JSONPath is refused, and every
reference leads to a state of its own scope. -/
def ofJson (v : Json) : Except DefinitionError Machine :=
  match v.getString? "QueryLanguage" with
  | some language =>
    if language = "JSONPath" then load v else .error (.unsupportedQueryLanguage language)
  | none => load v
where
  load (v : Json) : Except DefinitionError Machine := do
    let m ← Load.scope .topLevel v
    m.checkReferences .topLevel
    return m

def ofText (text : String) : Except DefinitionError Machine :=
  match Json.read? text with
  | none => .error (.document .stateMachine)
  | some v => ofJson v

end Machine
end StateCheck
