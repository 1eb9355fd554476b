import StateCheck.Intrinsic.Eval
/-!
Payload templates.

`Template.render` copies a template and replaces each entry whose key ends in `.$`: the entry loses
the ending and its value, a path or an intrinsic call, gives way to what it evaluates to.
-/
namespace StateCheck
set_option autoImplicit false

namespace Template

/-- The key without the ending `.$` of a dynamic entry. -/
def dynamicKey? (key : String) : Option String :=
  match key.toList.reverse with
  | '$' :: '.' :: rest => some (String.ofList rest.reverse)
  | _ => none

/-- The value of a dynamic entry: of an intrinsic call or of a path. -/
def dynamic (text : String) (docs : Documents) : Eval Json :=
  if Intrinsic.isIntrinsic text then Intrinsic.evaluate text docs
  else StateT.lift (Path.resolve text docs)

mutual
def render (docs : Documents) : Json → Eval Json
  | .obj fields => do
    let entries ← renderFields docs fields
    return .object entries
  | .arr items => do
    let items ← renderItems docs items
    return .arr items
  | .null => pure .null
  | .bool b => pure (.bool b)
  | .num n => pure (.num n)
  | .str s => pure (.str s)

def renderFields (docs : Documents) : List (String × Json) → Eval (List (String × Json))
  | [] => pure []
  | (key, value) :: rest => do
    let entry ← (match dynamicKey? key with
      | some target =>
        match value with
        | .str text => do
          let v ← dynamic text docs
          return (target, v)
        | _ => throw (.typeError (.dynamicValue key))
      | none => do
        let v ← render docs value
        return (key, v))
    let more ← renderFields docs rest
    return entry :: more

def renderItems (docs : Documents) : List Json → Eval (List Json)
  | [] => pure []
  | v :: rest => do
    let v ← render docs v
    let more ← renderItems docs rest
    return v :: more
end

end Template
end StateCheck
