import StateCheck.EvalError
import StateCheck.Json.Basic
import StateCheck.Number.Natural
import StateCheck.Text.Blank
/-!
Paths into documents, and reading with them.

A path starts at one of two documents and follows segments: a field, an index or a wildcard.
`Path.parse` reads its text and `Path.text` writes it with every field quoted. A path without
wildcards finds at most one value; one with wildcards always finds the array of all its matches.
-/
namespace StateCheck
set_option autoImplicit false

/-- The two documents that a path may start from: the business data and the execution context. -/
structure Documents where
  input : Json
  context : Json

namespace Path

inductive Root where
  | data
  | context
deriving DecidableEq, Repr

inductive Segment where
  | field (name : String)
  | index (i : Nat)
  | wildcard
deriving DecidableEq, Repr

end Path

structure Path where
  root : Path.Root
  segments : List Path.Segment
deriving DecidableEq, Repr

namespace Path

/-! ## Text -/

/-- The characters of a field name after a point. -/
def isFieldChar (c : Char) : Bool := c != '.' && c != '['

def unquoted? (cs : List Char) : Option (List Char) :=
  let between (q : Char) : Option (List Char) :=
    match cs with
    | [] => none
    | c :: rest => if c = q ∧ rest.getLast? = some q then some rest.dropLast else none
  (between '\'').or (between '"')

def namedSegment (name : List Char) : Except PathFlaw Segment :=
  if name = [] then .error .emptyField
  else if name = ['*'] then .ok .wildcard
  else .ok (.field (String.ofList name))

def bracketSegment (inner : List Char) : Except PathFlaw Segment :=
  let inner := Text.trim inner
  if inner = ['*'] then .ok .wildcard
  else match unquoted? inner with
    | some name => .ok (.field (String.ofList name))
    | none =>
      match Natural.read? inner with
      | some i => .ok (.index i)
      | none => .error (.badIndex (String.ofList inner))

def readSegments (cs : List Char) : Except PathFlaw (List Segment) :=
  match cs with
  | [] => .ok []
  | c :: rest =>
    if c = '.' then do
      let segment ← namedSegment (rest.takeWhile isFieldChar)
      let more ← readSegments (rest.dropWhile isFieldChar)
      return segment :: more
    else if c = '[' then
      if rest.contains ']' then do
        let segment ← bracketSegment (rest.takeWhile (· != ']'))
        let more ← readSegments ((rest.dropWhile (· != ']')).drop 1)
        return segment :: more
      else .error .unterminated
    else .error (.unexpected c)
termination_by cs.length
decreasing_by
  · have := (List.dropWhile_sublist isFieldChar (l := rest)).length_le
    simp only [List.length_cons]; omega
  · have := (List.dropWhile_sublist (· != ']') (l := rest)).length_le
    simp only [List.length_cons, List.length_drop]; omega

def parse (text : String) : Except EvalError Path :=
  let read (root : Root) (rest : List Char) : Except EvalError Path :=
    match readSegments rest with
    | .ok segments => .ok ⟨root, segments⟩
    | .error flaw => .error (.invalidPath text flaw)
  match text.toList with
  | '$' :: '$' :: rest => read .context rest
  | '$' :: rest => read .data rest
  | _ => .error (.invalidPath text .noRoot)

/-- The text of a segment between brackets, a field in single quotes. -/
def Segment.text : Segment → List Char
  | .field name => '[' :: '\'' :: name.toList ++ ['\'', ']']
  | .index i => '[' :: (toString i).toList ++ [']']
  | .wildcard => ['[', '*', ']']

def Root.text : Root → List Char
  | .data => ['$']
  | .context => ['$', '$']

/-- The text of a path, every field in quotes. -/
def text (p : Path) : String := String.ofList (p.root.text ++ p.segments.flatMap Segment.text)

/-! ## Reading -/

def Segment.isWildcard : Segment → Bool
  | .wildcard => true
  | _ => false

/-- Whether a path collects matches and does not lead to one value. -/
def hasWildcard (p : Path) : Bool := p.segments.any Segment.isWildcard

/-- The value one step further; a wildcard leads to no single value. -/
def Segment.follow? (s : Segment) (v : Json) : Option Json :=
  match s, v with
  | .field name, .obj fields => Fields.get? name fields
  | .index i, .arr items => items[i]?
  | _, _ => none

def find? : List Segment → Json → Option Json
  | [], v => some v
  | s :: rest, v => (s.follow? v).bind (find? rest)

def children : Json → List Json
  | .arr items => items
  | .obj fields => fields.map (·.2)
  | _ => []

/-- Every value that the segments lead to, in document order. -/
def findAll : List Segment → Json → List Json
  | [], v => [v]
  | .wildcard :: rest, v => (children v).flatMap (findAll rest)
  | s :: rest, v =>
    match s.follow? v with
    | some next => findAll rest next
    | none => []

def Root.document (r : Root) (docs : Documents) : Json :=
  match r with
  | .data => docs.input
  | .context => docs.context

/-- What a path finds: the one value, or the array of all matches when it has a wildcard. -/
def lookup? (p : Path) (docs : Documents) : Option Json :=
  let start := p.root.document docs
  if p.hasWildcard then some (.arr (findAll p.segments start)) else find? p.segments start

/-- The value that a path text finds; finding nothing is an error. -/
def resolve (text : String) (docs : Documents) : Except EvalError Json := do
  let p ← parse text
  match p.lookup? docs with
  | some v => .ok v
  | none => .error (.pathNotFound text)

/-- Whether a path text finds something; a malformed one finds nothing. -/
def isPresent (text : String) (docs : Documents) : Bool :=
  match parse text with
  | .ok p => (p.lookup? docs).isSome
  | .error _ => false

end Path
end StateCheck
