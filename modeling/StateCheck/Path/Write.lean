import StateCheck.Path.Basic
/-!
Writing into documents at a path, and the path fields of states.

`Path.set` writes one value into a copy of a document. Missing objects on the way are created and
a scalar in the way of a further segment gives way to an object; arrays are never extended.
-/
namespace StateCheck
set_option autoImplicit false

namespace Path

/-- What stands in a slot before a write goes deeper: a scalar gives way to an empty object. -/
def opened (rest : List Segment) (slot : Json) : Json :=
  if !rest.isEmpty && !slot.isObject && !slot.isArray then .empty else slot

/-- The document with `value` at the end of the segments; `text` is the path in error messages. -/
def write (text : String) (value : Json) : List Segment → Json → Except EvalError Json
  | [], _ => .ok value
  | .field name :: rest, target =>
    match target with
    | .obj fields => do
      let slot := opened rest ((Fields.get? name fields).getD .empty)
      let written ← write text value rest slot
      return .obj (Fields.insert name written fields)
    | _ => .error (.typeError (.parentNotObject name text))
  | .index i :: rest, target =>
    match target with
    | .arr items =>
      match items[i]? with
      | none => .error (.pathNotFound text)
      | some slot => do
        let written ← write text value rest slot
        return .arr (items.set i written)
    | _ => .error (.typeError (.parentNotArray i text))
  | .wildcard :: _, _ => .error (.invalidPath text .wildcardTarget)

/-- Whether a target has to become an object before the first segment is written. -/
def startsFresh (segments : List Segment) (target : Json) : Bool :=
  match segments with
  | .field _ :: _ => !target.isObject
  | _ => false

/-- A copy of the target with `value` written at a path text. -/
def set (target : Json) (text : String) (value : Json) : Except EvalError Json := do
  let p ← parse text
  if p.root = .context then .error (.invalidPath text .contextTarget)
  else if p.hasWildcard then .error (.invalidPath text .wildcardTarget)
  else
    let start := if startsFresh p.segments target then .empty else target
    write text value p.segments start

end Path

/-! ## Path fields -/

/-- A path field of a state: a path, or null for none. -/
inductive PathField where
  | path (text : String)
  | discard
deriving DecidableEq, Repr

namespace PathField

def whole : PathField := .path "$"

instance : Inhabited PathField := ⟨whole⟩

/-- The document that an input or output path selects; null selects the empty object. -/
def select (f : PathField) (docs : Documents) : Except EvalError Json :=
  match f with
  | .discard => .ok .empty
  | .path text => Path.resolve text docs

/-- The raw input with a result written at a result path; null keeps the raw input. -/
def mergeResult (f : PathField) (raw result : Json) : Except EvalError Json :=
  match f with
  | .discard => .ok raw
  | .path text => Path.set raw text result

end PathField
end StateCheck
