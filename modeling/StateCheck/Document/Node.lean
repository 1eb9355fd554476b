import StateCheck.Json.Basic
/-!
Documents as they are written, before they are fitted to a type.

JSON, YAML and TOML texts all become nodes. A plain YAML scalar keeps its characters beside its
value, because a field that holds text takes the characters. `Node.toJson?` is the document as a
free-form value, and `Node.settled?` the document where only the values count.
-/
namespace StateCheck
set_option autoImplicit false

inductive Node where
  /-- Text without any document in it. -/
  | nothing
  /-- A single value, with its characters when they were written without quotes. -/
  | scalar (value : Json) (plain : Option String)
  /-- A scalar with characters but no value: an integer of more than 64 bits, or one that its tag
  does not allow. -/
  | unvalued (plain : String)
  /-- A number that is infinite or undefined: no value can hold it, so that it is null as one, but
  it was not left out. -/
  | boundless (plain : Option String)
  /-- Items; `positional` when they may also stand for the fields of a record, in order. -/
  | sequence (positional : Bool) (items : List Node)
  /-- Keys with values as written, repeated keys included. -/
  | mapping (entries : List (Node × Node))
  /-- A node under a tag: the word of a tag of the document's own, the node that a free-form value
  takes, and the node without the tag, which a typed field takes. -/
  | tagged (word : Option String) (free bare : Node)
deriving Inhabited

namespace Node

/-! ## Free-form values -/

/-- The text of a node that is a string or was written as one. -/
def text? : Node → Option String
  | scalar (.str s) _ => some s
  | scalar _ (some plain) | unvalued plain | boundless (some plain) => some plain
  | tagged _ _ bare => bare.text?
  | _ => none

mutual
/-- The node as a value; keys have to be texts, and of a repeated key the last value stays. -/
def toJson? : Node → Option Json
  | nothing => some .null
  | scalar value _ => some value
  | unvalued _ => none
  | boundless _ => some .null
  | sequence _ items => (itemsJson? items).map .arr
  | mapping entries => (entriesJson? entries).map .object
  | tagged _ free _ => free.toJson?

def itemsJson? : List Node → Option (List Json)
  | [] => some []
  | n :: rest => do
    let v ← n.toJson?
    let more ← itemsJson? rest
    return v :: more

def entriesJson? : List (Node × Node) → Option (List (String × Json))
  | [] => some []
  | (key, n) :: rest => do
    let key ← key.text?
    let v ← n.toJson?
    let more ← entriesJson? rest
    return (key, v) :: more
end

mutual
def ofJson : Json → Node
  | .arr items => .sequence true (itemsOf items)
  | .obj fields => .mapping (entriesOf fields)
  | .null => .scalar .null none
  | .bool b => .scalar (.bool b) none
  | .num n => .scalar (.num n) none
  | .str s => .scalar (.str s) none

def itemsOf : List Json → List Node
  | [] => []
  | v :: rest => ofJson v :: itemsOf rest

def entriesOf : List (String × Json) → List (Node × Node)
  | [] => []
  | (key, v) :: rest => (.scalar (.str key) none, ofJson v) :: entriesOf rest
end

mutual
/-- The node with every scalar settled on its value, its characters forgotten. Every scalar has to
have one. -/
def settled? : Node → Option Node
  | nothing => some .nothing
  | scalar value _ => some (.scalar value none)
  | unvalued _ => none
  | boundless _ => some (.boundless none)
  | sequence _ items => (settledItems? items).map (.sequence true)
  | mapping entries => (settledEntries? entries).map .mapping
  | tagged _ free _ => free.settled?

def settledItems? : List Node → Option (List Node)
  | [] => some []
  | n :: rest => do
    let n ← n.settled?
    let more ← settledItems? rest
    return n :: more

def settledEntries? : List (Node × Node) → Option (List (Node × Node))
  | [] => some []
  | (key, n) :: rest => do
    let key ← key.settled?
    let n ← n.settled?
    let more ← settledEntries? rest
    return (key, n) :: more
end

mutual
/-- How many collections stand inside each other at the deepest place. -/
def depth : Node → Nat
  | sequence _ items => itemsDepth items + 1
  | mapping entries => entriesDepth entries + 1
  | tagged _ _ bare => bare.depth
  | _ => 0

def itemsDepth : List Node → Nat
  | [] => 0
  | n :: rest => max n.depth (itemsDepth rest)

def entriesDepth : List (Node × Node) → Nat
  | [] => 0
  | (key, n) :: rest => max (max key.depth n.depth) (entriesDepth rest)
end

end Node
end StateCheck
