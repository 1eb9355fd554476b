import StateCheck.Document.Node
/-!
Fitting nodes to types.

A `Fit α` says how a node is read as an `α`; none means that it does not fit. Records are read
field by field: `Node.record?` finds the known fields of a mapping, or of a list that gives them in
order, and refuses a known field that is given twice.
-/
namespace StateCheck
set_option autoImplicit false

/-- A way to read nodes as values of a type. -/
abbrev Fit (α : Type) := Node → Option α

namespace Fit

def text : Fit String := Node.text?

def flag : Fit Bool
  | .scalar (.bool b) _ => some b
  | .tagged _ _ bare => flag bare
  | _ => none

/-- An unsigned integer of 64 bits, written without a minus. -/
def natural : Fit Nat
  | .scalar v plain => if plain.any (·.startsWith "-") then none else v.asNatural?
  | .tagged _ _ bare => natural bare
  | _ => none

/-- An unsigned integer of 32 bits. -/
def small : Fit Nat := fun n => (natural n).filter (· < pow2 32)

def number : Fit Binary64
  | .scalar v _ => v.asBinary64?
  | _ => none

def value : Fit Json := Node.toJson?

/-- A list; text that was left out altogether stands for the empty list. -/
def list {α : Type} (item : Fit α) : Fit (List α)
  | .sequence _ items => items.mapM item
  | .nothing | .scalar .null (some "") => some []
  | .tagged _ _ bare => list item bare
  | _ => none

def optional {α : Type} (fit : Fit α) : Fit (Option α)
  | .nothing | .scalar .null _ | .tagged _ (.scalar .null _) _ => some none
  | n => (fit n).map some

/-- One of several words, which may also be the tag of null or the one key of a mapping to null. -/
def word {α : Type} (words : List (String × α)) : Fit α
  | .mapping [(.scalar (.str key) none, .scalar .null none)]
  | .tagged (some key) _ (.scalar .null _) => words.lookup key
  | .tagged (some _) _ _ => none
  | n => n.text?.bind fun key => words.lookup key

end Fit

/-! ## Records -/

abbrev Record := List (String × Node)

namespace Node

/-- The known fields among entries with text keys; a known field may not come twice. -/
def knownFields? (names : List String) (found : Record) : List (Node × Node) → Option Record
  | [] => some found.reverse
  | (key, n) :: rest => do
    let key ← key.text?
    if !names.contains key then knownFields? names found rest
    else if (found.lookup key).isSome then none
    else knownFields? names ((key, n) :: found) rest

/-- The fields of a record with these names, in the order in which a list gives them. -/
def record? (names : List String) : Node → Option Record
  | .mapping entries => knownFields? names [] entries
  | .sequence true items => if items.length ≤ names.length then some (names.zip items) else none
  | .nothing | .scalar .null (some "") => some []
  | .tagged _ _ bare => record? names bare
  | _ => none

def onlyFields (names : List String) : Node → Bool
  | .mapping entries => entries.all fun (key, _) => key.text?.any names.contains
  | _ => true

end Node

namespace Record

def required {α : Type} (r : Record) (name : String) (fit : Fit α) : Option α :=
  (r.lookup name).bind fit

def defaulted {α : Type} (r : Record) (name : String) (default : α) (fit : Fit α) : Option α :=
  match r.lookup name with
  | none => some default
  | some n => fit n

/-- A field that may be left out or null. -/
def optional {α : Type} (r : Record) (name : String) (fit : Fit α) : Option (Option α) :=
  r.defaulted name none (Fit.optional fit)

end Record
end StateCheck
