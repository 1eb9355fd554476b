import StateCheck.Document.Node
/-!
Tables of a TOML document while it is read.

A table is written in one of three ways: under its own header, as a part of the header of an inner
table, or by dotted keys. Each may be added to only in the way it was begun, and a header comes
once.
-/
namespace StateCheck.Toml
set_option autoImplicit false

inductive TableKind where
  /-- As a part of a longer header. -/
  | implied
  | header
  | dotted
deriving DecidableEq, Repr

inductive Item where
  | value (n : Node)
  | table (kind : TableKind) (entries : List (String × Item))
  /-- Tables under one repeated header, the last first. -/
  | tables (items : List (List (String × Item)))
deriving Inhabited

abbrev Entries := List (String × Item)

namespace Entries

/-- The entries with the item of a key put in its place or at the end. -/
def put (key : String) (item : Item) : Entries → Entries
  | [] => [(key, item)]
  | (k, i) :: rest => if k = key then (key, item) :: rest else (k, i) :: put key item rest

/-- Changes the entries of the table that dotted keys lead to. -/
def alongDotted (change : Entries → Option Entries) : List String → Entries → Option Entries
  | [], entries => change entries
  | key :: rest, entries => do
    let inner ← match entries.lookup key with
      | none => some []
      | some (.table .dotted inner) => some inner
      | some (.table .implied inner) => if rest.isEmpty then none else some inner
      | some _ => none
    let changed ← alongDotted change rest inner
    let kind := match entries.lookup key with
      | some (.table kind _) => kind
      | _ => .dotted
    return put key (.table kind changed) entries

/-- The entries with one more, whose key may not be there yet. -/
def add (key : String) (item : Item) (entries : Entries) : Option Entries :=
  if (entries.lookup key).isSome then none else some (entries ++ [(key, item)])

def assign (path : List String) (n : Node) (entries : Entries) : Option Entries := do
  let key ← path.getLast?
  alongDotted (add key (.value n)) path.dropLast entries

/-- Changes the entries of the table that a header leads to; of tables the last is meant. -/
def alongHeader (change : Entries → Option Entries) : List String → Entries → Option Entries
  | [], entries => change entries
  | key :: rest, entries =>
    match entries.lookup key with
    | none => do return put key (.table .implied (← alongHeader change rest [])) entries
    | some (.table kind inner) => do
      return put key (.table kind (← alongHeader change rest inner)) entries
    | some (.tables (last :: before)) => do
      return put key (.tables ((← alongHeader change rest last) :: before)) entries
    | some _ => none

def openTable (key : String) (entries : Entries) : Option Entries :=
  match entries.lookup key with
  | none => some (put key (.table .header []) entries)
  | some (.table .implied inner) => some (put key (.table .header inner) entries)
  | some _ => none

/-- The entries with one more table under a repeated header. -/
def openItem (key : String) (entries : Entries) : Option Entries :=
  match entries.lookup key with
  | none => some (put key (.tables [[]]) entries)
  | some (.tables items) => some (put key (.tables ([] :: items)) entries)
  | some _ => none

end Entries

mutual
def Item.toNode : Item → Node
  | .value n => n
  | .table _ entries => .mapping (nodesOfEntries entries)
  | .tables items => .sequence true (nodesOfTables items [])

def nodesOfEntries : List (String × Item) → List (Node × Node)
  | [] => []
  | (key, item) :: rest => (.scalar (.str key) none, item.toNode) :: nodesOfEntries rest

/-- Tables as nodes in the order in which they were written. -/
def nodesOfTables : List (List (String × Item)) → List Node → List Node
  | [], done => done
  | entries :: rest, done => nodesOfTables rest (.mapping (nodesOfEntries entries) :: done)
end

end StateCheck.Toml
