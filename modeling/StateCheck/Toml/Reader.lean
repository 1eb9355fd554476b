import StateCheck.Toml.Value
/-!
Reading a TOML document: lines with headers and lines with keys and values.
-/
namespace StateCheck.Toml
set_option autoImplicit false

/-- A document that is being read: its top-level entries, and the header of the current table. -/
structure Draft where
  entries : Entries := []
  header : List String := []

namespace Draft

/-- The draft with a change made to the table of the current header. -/
def inTable (d : Draft) (change : Entries → Option Entries) : Option Draft :=
  (d.entries.alongHeader change d.header).map fun entries => { d with entries }

def begin (d : Draft) (path : List String) (start : String → Entries → Option Entries) :
    Option Draft := do
  let key ← path.getLast?
  let entries ← d.entries.alongHeader (start key) path.dropLast
  return ⟨entries, path⟩

end Draft

def changed (d : Option Draft) : Read Draft :=
  match d with
  | some d => return d
  | none => failure

/-- Reads the lines of a document, at most `count` of them. -/
def lines (d : Draft) : (count : Nat) → Read Draft
  | 0 => failure
  | count + 1 => do
    skipBlanks
    match ← peek with
    | none => return d
    | some '#' | some '\n' | some '\r' =>
      lineEnd
      lines d count
    | some '[' =>
      discard (take? '[')
      let isItem ← take? '['
      let path ← dottedKey (count + 1)
      expect ']'
      if isItem then expect ']'
      lineEnd
      let d ← changed (d.begin path (if isItem then Entries.openItem else Entries.openTable))
      lines d count
    | some _ =>
      let path ← dottedKey (count + 1)
      expect '='
      skipBlanks
      let n ← value (count + 1)
      lineEnd
      let d ← changed (d.inTable (Entries.assign path n))
      lines d count

def read? (text : String) : Option Node :=
  let cs := match text.toList with
    | '\ufeff' :: rest => rest
    | cs => cs
  (lines {} (cs.length + 1) cs).map fun (d, _) => (Item.table .header d.entries).toNode

end StateCheck.Toml
