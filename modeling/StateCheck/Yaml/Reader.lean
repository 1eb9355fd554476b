import StateCheck.Yaml.Plain
import StateCheck.Yaml.Token
/-!
Reading a YAML document.

The nodes follow from the tokens by the grammar of collections. An alias stands for the node that
its anchor was put on. A text holds at most one document, of 128 levels at most, and following its
aliases may not make it a hundred times as large.
-/
namespace StateCheck.Yaml
set_option autoImplicit false

/-- A finished node, with the number of aliases that writing it out follows. -/
structure Anchored where
  node : Node
  jumps : Nat

structure Tape where
  tokens : List Token
  /-- How many scalars and aliases there were and how many collections began or ended. -/
  marks : Nat := 0
  /-- How many aliases are followed in writing out what was read. -/
  jumps : Nat := 0
  /-- The numbers of the nodes that anchors stand for. -/
  anchors : List (String × Nat) := []
  nodes : List (Nat × Anchored) := []

abbrev Parse := StateT Tape Option

namespace Parse

def peek : Parse (Option Token) := return (← get).tokens.head?

def drop : Parse Unit := modify fun t => { t with tokens := t.tokens.tail }

def take? (t : Token) : Parse Bool := do
  if (← peek) = some t then
    drop
    return true
  else return false

/-- Counts a mark; its number. -/
def mark : Parse Nat := modifyGet fun t => (t.marks, { t with marks := t.marks + 1 })

end Parse

open Parse

def emptyNode : Parse Node := do
  discard mark
  return plainNode ""

def scalarNode (tag : Option Tag) (text : String) (plain : Bool) : Node :=
  let bare : Node := if plain then plainNode text else .scalar (.str text) none
  tag.elim bare (·.onScalar text bare)

/-- Tag and anchor in front of a node, each at most once. -/
structure Properties where
  anchor : Option String := none
  tag : Option Tag := none

def properties (p : Properties) : Nat → Parse Properties
  | 0 => return p
  | count + 1 => do
    match ← peek with
    | some (.anchor name) =>
      if p.anchor.isSome then failure
      drop
      properties { p with anchor := some name } count
    | some (.tag tag) =>
      if p.tag.isSome then failure
      drop
      properties { p with tag := some tag } count
    | _ => return p

/-- Where a node begins: its number, and the aliases followed before it. -/
structure Start where
  number : Nat
  jumps : Nat

/-- Begins the node with these properties; its anchor stands for it from here on. -/
def begun (p : Properties) : Parse Start := do
  let number ← mark
  modify fun t => { t with anchors := p.anchor.toList.map (·, number) ++ t.anchors }
  return { number, jumps := (← get).jumps }

def finished (p : Properties) (start : Start) (n : Node) : Parse Node := do
  if p.anchor.isSome then
    modify fun t => { t with nodes := (start.number, ⟨n, t.jumps - start.jumps⟩) :: t.nodes }
  return n

/-- The node of an alias: the latest with its anchor, which has to be finished. -/
def aliased (name : String) : Parse Node := do
  discard mark
  let t ← get
  match (t.anchors.lookup name).bind fun number => t.nodes.lookup number with
  | some found =>
    set { t with jumps := t.jumps + 1 + found.jumps }
    return found.node
  | none => failure

/-- Whether one of these tokens is next, or none at all. -/
def isNext (tokens : List Token) : Parse Bool := return (← peek).all tokens.contains

def behindEntry : Parse Unit := do
  if ← take? .flowEntry then return ()
  failure

mutual
/-- Reads a node. In block context collections by indentation may follow, and as the value of a key
also entries that are not indented. -/
def node (block loose : Bool) : Nat → Parse Node
  | 0 => failure
  | fuel + 1 => do
    match ← peek with
    | some (.alias name) =>
      drop
      aliased name
    | _ =>
      let p ← properties {} 2
      let start ← begun p
      let scalar (text : String) (plain : Bool) : Parse Node :=
        finished p start (scalarNode p.tag text plain)
      let collection (n : Node) : Parse Node := do
        discard mark
        finished p start (p.tag.elim n (·.onCollection n))
      match ← peek with
      | some (.scalar text plain) =>
        drop
        scalar text plain
      | some .flowSequenceStart =>
        drop
        collection (.sequence false (← flowItems true fuel))
      | some .flowMappingStart =>
        drop
        collection (.mapping (← flowPairs true fuel))
      | next =>
        if loose && next == some .entry then
          let items ← looseItems fuel
          collection (.sequence false items)
        else if block && next == some .sequenceStart then
          drop
          collection (.sequence false (← blockItems fuel))
        else if block && next == some .mappingStart then
          drop
          collection (.mapping (← blockPairs fuel))
        else if p.anchor.isSome || p.tag.isSome then scalar "" true
        else failure

/-- A node, or the empty node in front of some tokens. -/
def nodeUnless (ends : List Token) (block loose : Bool) : Nat → Parse Node
  | 0 => failure
  | fuel + 1 => do
    if ← isNext ends then emptyNode else node block loose fuel

def blockItems : Nat → Parse (List Node)
  | 0 => failure
  | fuel + 1 => do
    if ← take? .blockEnd then return []
    if ← take? .entry then
      let n ← nodeUnless [.entry, .blockEnd] true false fuel
      return n :: (← blockItems fuel)
    failure

/-- The items of a sequence that is indented no further than its key. -/
def looseItems : Nat → Parse (List Node)
  | 0 => failure
  | fuel + 1 => do
    if ← take? .entry then
      let n ← nodeUnless [.entry, .key, .value, .blockEnd] true false fuel
      return n :: (← looseItems fuel)
    return []

def blockPairs : Nat → Parse (List (Node × Node))
  | 0 => failure
  | fuel + 1 => do
    let ends : List Token := [.key, .value, .blockEnd]
    if ← take? .blockEnd then return []
    let key ← (do
      if ← take? .key then nodeUnless ends true true fuel else failure)
    let n ← (do
      if ← take? .value then nodeUnless ends true true fuel else emptyNode)
    return (key, n) :: (← blockPairs fuel)

def flowPair (ends : List Token) : Nat → Parse (Node × Node)
  | 0 => failure
  | fuel + 1 => do
    let key ← nodeUnless (.value :: ends) false false fuel
    let n ← (do
      if ← take? .value then nodeUnless ends false false fuel else emptyNode)
    return (key, n)

/-- The items between square brackets; a pair among them is a mapping of its own. -/
def flowItems (first : Bool) : Nat → Parse (List Node)
  | 0 => failure
  | fuel + 1 => do
    if ← take? .flowSequenceEnd then return []
    if !first then behindEntry
    if ← take? .flowSequenceEnd then return []
    let n ← (do
      if ← take? .key then
        let pair ← flowPair [.flowEntry, .flowSequenceEnd] fuel
        return .mapping [pair]
      else node false false fuel)
    return n :: (← flowItems false fuel)

/-- The entries between curly brackets; without a mark an entry is a key alone. -/
def flowPairs (first : Bool) : Nat → Parse (List (Node × Node))
  | 0 => failure
  | fuel + 1 => do
    if ← take? .flowMappingEnd then return []
    if !first then behindEntry
    if ← take? .flowMappingEnd then return []
    let pair ← (do
      if ← take? .key then flowPair [.flowEntry, .flowMappingEnd] fuel
      else
        let key ← node false false fuel
        return (key, ← emptyNode))
    return pair :: (← flowPairs false fuel)
end

/-! ## Documents -/

/-- The most aliases that are followed, for each mark of a document. -/
def jumpsPerMark : Nat := 100

def document? (tokens : List Token) : Option Node :=
  let fuel := 4 * tokens.length + 4
  let body (content : Parse Node) (tokens : List Token) : Option Node := do
    let (n, tape) ← content.run { tokens }
    if tape.tokens.all (· == .documentEnd) && tape.jumps ≤ jumpsPerMark * tape.marks then some n
    else none
  match tokens with
  | [] => some .nothing
  | .directive :: _ | .documentStart :: _ =>
    match tokens.dropWhile (· == .directive) with
    | .documentStart :: rest =>
      body (if rest.all (· == .documentEnd) then emptyNode else node true false fuel) rest
    | _ => none
  | _ => body (node true false fuel) tokens

def maxDepth : Nat := 128

def isAllowed (c : Char) : Bool :=
  let n := c.toNat
  c == '\t' || c == '\n' || c == '\r' || (0x20 ≤ n && n ≤ 0x7e) || n == 0x85 ||
    (0xa0 ≤ n && n ≤ 0xfffd) || 0x10000 ≤ n

/-- The characters with every carriage return and next-line character read as a line feed. -/
def uniformBreaks : List Char → List Char
  | '\r' :: '\n' :: rest => '\n' :: uniformBreaks rest
  | c :: rest => (if c == '\r' || c == '\u0085' then '\n' else c) :: uniformBreaks rest
  | [] => []

def withoutByteOrderMark : List Char → List Char
  | '\ufeff' :: rest => rest
  | cs => cs

def read? (text : String) : Option Node := do
  let cs := withoutByteOrderMark text.toList
  if !cs.all isAllowed then none
  let n ← document? (← tokens? (uniformBreaks cs))
  if n.depth ≤ maxDepth then some n else none

end StateCheck.Yaml
