import StateCheck.Yaml.Plain
import StateCheck.Yaml.Scalar
/-!
The tokens of a YAML text.

Collections that are written by indentation get tokens for their start and end, as if they had
brackets. Whether a scalar is a key shows only at the colon behind it: every place where a key could
stand is remembered (`PendingKey`), and at the colon the key token is put in there.
-/
namespace StateCheck.Yaml
set_option autoImplicit false

inductive Token where
  | directive
  | documentStart
  | documentEnd
  | sequenceStart
  | mappingStart
  | blockEnd
  | flowSequenceStart
  | flowSequenceEnd
  | flowMappingStart
  | flowMappingEnd
  | entry
  | flowEntry
  | key
  | value
  | alias (name : String)
  | anchor (name : String)
  | tag (tag : Tag)
  | scalar (text : String) (plain : Bool)
deriving DecidableEq, Repr, Inhabited

/-- A place where a key may have begun: the number of the token there, and whether the indentation
leaves nothing but a key. -/
structure PendingKey where
  token : Nat
  required : Bool
  mark : Mark

structure Scanner where
  rest : List Char
  mark : Mark := ⟨0, 0, 0⟩
  /-- The columns of the open collections written by indentation, the innermost first. -/
  indents : List Nat := []
  keyAllowed : Bool := true
  blockKey : Option PendingKey := none
  /-- The pending keys of the open brackets, the innermost first. -/
  flowKeys : List (Option PendingKey) := []
  tokens : Array Token := #[]

namespace Scanner

def inFlow (s : Scanner) : Bool := !s.flowKeys.isEmpty

def skip (s : Scanner) (n : Nat) : Scanner :=
  { s with rest := s.rest.drop n, mark := s.mark.afterAll (s.rest.take n) }

def push (s : Scanner) (t : Token) : Scanner := { s with tokens := s.tokens.push t }

def insert (s : Scanner) (index : Nat) (t : Token) : Scanner :=
  { s with tokens := s.tokens.extract 0 index ++ #[t] ++ s.tokens.extract index s.tokens.size }

/-! ## Pending keys -/

/-- The pending key of the innermost bracket, or of the block context. -/
def pending (s : Scanner) : Option PendingKey := s.flowKeys.headD s.blockKey

def setPending (s : Scanner) (k : Option PendingKey) : Scanner :=
  match s.flowKeys with
  | [] => { s with blockKey := k }
  | _ :: outer => { s with flowKeys := k :: outer }

/-- No key is pending any more; a required one would be missing. -/
def dropKey (s : Scanner) : Option Scanner :=
  if s.pending.any (·.required) then none else some (s.setPending none)

def saveKey (s : Scanner) : Option Scanner :=
  if s.keyAllowed then do
    let required := !s.inFlow && s.indents.head? == some s.mark.column
    let s ← s.dropKey
    return s.setPending (some ⟨s.tokens.size, required, s.mark⟩)
  else some s

/-- A pending key is over at the end of its line and after 1024 characters. -/
def isStale (s : Scanner) (k : PendingKey) : Bool :=
  k.mark.line < s.mark.line || k.mark.index + 1024 < s.mark.index

/-- The scanner without the keys that are over; a required one would be missing. -/
def dropStale (s : Scanner) : Option Scanner :=
  let keep (k : Option PendingKey) : Option PendingKey := k.filter (!s.isStale ·)
  if (s.blockKey :: s.flowKeys).any (·.any fun k => k.required && s.isStale k) then none
  else some { s with blockKey := keep s.blockKey, flowKeys := s.flowKeys.map keep }

/-! ## Indentation -/

/-- Opens a collection at a column further in than the open ones, with its token at `index`. -/
def openAt (s : Scanner) (column index : Nat) (t : Token) : Scanner :=
  if !s.inFlow && s.indents.head?.all (· < column) then
    { s.insert index t with indents := column :: s.indents }
  else s

/-- Closes the collections for which `closes` holds of their column. -/
def closeWhile (s : Scanner) (closes : Nat → Bool) : Scanner :=
  if s.inFlow then s
  else
    let closed := s.indents.takeWhile closes
    { s with
      indents := s.indents.drop closed.length
      tokens := s.tokens ++ (closed.map fun _ => Token.blockEnd).toArray }

/-! ## Between tokens -/

/-- Skips blanks, comments and breaks. Behind a break in block context a key may begin, and where a
key may begin a tab is no blank. -/
def between (inFlow keyAllowed inComment : Bool) : List Char → Mark → List Char × Mark × Bool
  | [], m => ([], m, keyAllowed)
  | c :: rest, m =>
    if isBreak c then between inFlow (keyAllowed || !inFlow) false rest (m.after c)
    else if inComment || c == ' ' || (c == '\t' && (inFlow || !keyAllowed)) then
      between inFlow keyAllowed inComment rest (m.after c)
    else if c == '#' then between inFlow keyAllowed true rest (m.after c)
    else (c :: rest, m, keyAllowed)

def toNext (s : Scanner) : Option Scanner := do
  let (rest, mark, keyAllowed) := between s.inFlow s.keyAllowed false s.rest s.mark
  let s ← dropStale { s with rest, mark, keyAllowed }
  return s.closeWhile (s.mark.column < ·)

/-! ## Single tokens -/

def withScalar (s : Scanner) (scanned : Scanned) (plain : Bool) : Scanner :=
  { s with rest := scanned.rest, mark := scanned.mark }.push (.scalar scanned.text plain)

/-- A mark at the start of a line that begins or ends a document. -/
def documentMark (s : Scanner) (t : Token) : Option Scanner := do
  let s ← (s.closeWhile fun _ => true).dropKey
  return { (s.skip 3).push t with keyAllowed := false }

/-- A line that begins with a percent sign; only version and tag lines are known. -/
def directiveLine (s : Scanner) : Option Scanner := do
  let s ← (s.closeWhile fun _ => true).dropKey
  let line := s.rest.takeWhile (!isBreak ·)
  let text := String.ofList (line.takeWhile (· != '#'))
  let words := (text.splitToList (· == ' ')).filter (!·.isEmpty)
  let versioned := words.length == 2 && words.head? == some "%YAML" &&
    ["1.1", "1.2"].contains (words.getLastD "")
  if versioned || (words.length == 3 && words.head? == some "%TAG") then
    return { (s.skip line.length).push .directive with keyAllowed := false }
  else none

def openFlow (s : Scanner) (t : Token) : Option Scanner := do
  let s ← s.saveKey
  return { (s.skip 1).push t with keyAllowed := true, flowKeys := none :: s.flowKeys }

def closeFlow (s : Scanner) (t : Token) : Option Scanner := do
  let s ← s.dropKey
  return { (s.skip 1).push t with keyAllowed := false, flowKeys := s.flowKeys.tail }

def commaMark (s : Scanner) : Option Scanner := do
  let s ← s.dropKey
  return { (s.skip 1).push .flowEntry with keyAllowed := true }

/-- The dash of an entry; outside of brackets it may open a sequence. -/
def entryMark (s : Scanner) : Option Scanner :=
  if !s.inFlow && !s.keyAllowed then none
  else do
    let s ← (s.openAt s.mark.column s.tokens.size .sequenceStart).dropKey
    return { (s.skip 1).push .entry with keyAllowed := true }

/-- A question mark in front of a key; outside of brackets it may open a mapping. -/
def keyMark (s : Scanner) : Option Scanner :=
  if !s.inFlow && !s.keyAllowed then none
  else do
    let s ← (s.openAt s.mark.column s.tokens.size .mappingStart).dropKey
    return { (s.skip 1).push .key with keyAllowed := !s.inFlow }

/-- A colon: the pending key before it becomes one, and may open a mapping. -/
def valueMark (s : Scanner) : Option Scanner :=
  match s.pending with
  | some k =>
    let s := ((s.insert k.token .key).openAt k.mark.column k.token .mappingStart).setPending none
    some { (s.skip 1).push .value with keyAllowed := false }
  | none =>
    if !s.inFlow && !s.keyAllowed then none
    else
      let s := s.openAt s.mark.column s.tokens.size .mappingStart
      some { (s.skip 1).push .value with keyAllowed := !s.inFlow }

def isNameChar (c : Char) : Bool := c.isAlphanum || c == '_' || c == '-'

def anchorName (s : Scanner) (token : String → Token) : Option Scanner := do
  let s ← s.saveKey
  let name := (s.rest.drop 1).takeWhile isNameChar
  let behind := (s.rest.drop 1).dropWhile isNameChar
  let endsWell :=
    isGapOrEnd behind || behind.head?.any ['?', ':', ',', ']', '}', '%', '@', '`'].contains
  if name.isEmpty || !endsWell then none else
  let named := (s.skip (name.length + 1)).push (token (String.ofList name))
  some { named with keyAllowed := false }

/-- The characters of tags; inside of `<` and `>` brackets and the comma too. -/
def isTagChar (writtenOut : Bool) (c : Char) : Bool :=
  isNameChar c || ";/?:@&=+$.!~*'()".toList.contains c || (writtenOut && [',', '[', ']'].contains c)

/-- The tag behind an exclamation mark: written out, of the core, or of the document's own. Other
abbreviations would have to be declared. -/
def readTag (cs : List Char) : Option (Tag × List Char) :=
  let own := cs.takeWhile (isTagChar false)
  match cs with
  | '<' :: rest =>
    let name := rest.takeWhile (isTagChar true)
    match rest.dropWhile (isTagChar true) with
    | '>' :: behind => if name.isEmpty then none else some (.ofChars name, behind)
    | _ => none
  | '!' :: rest =>
    let kind := rest.takeWhile (isTagChar false)
    if kind.isEmpty then none
    else some (.core (String.ofList kind), rest.dropWhile (isTagChar false))
  | _ =>
    if (cs.dropWhile isNameChar).head? == some '!' then none
    else some (.own (String.ofList own), cs.dropWhile (isTagChar false))

def tagMark (s : Scanner) : Option Scanner := do
  let s ← s.saveKey
  let (tag, behind) ← readTag (s.rest.drop 1)
  let endsWell := isGapOrEnd behind || (s.inFlow && behind.head? == some ',')
  if !endsWell then none
  else some { (s.skip (s.rest.length - behind.length)).push (.tag tag) with keyAllowed := false }

def blockScalar (s : Scanner) (fold : Bool) : Option Scanner := do
  let s ← s.dropKey
  let s := s.skip 1
  let scanned ← scanBlock fold s.indents.head? s.rest s.mark
  return { s.withScalar scanned false with keyAllowed := true }

def quotedScalar (s : Scanner) (scan : List Char → Mark → Option Scanned) : Option Scanner := do
  let s ← s.saveKey
  let s := s.skip 1
  let scanned ← scan s.rest s.mark
  return { s.withScalar scanned false with keyAllowed := false }

def plainScalar (s : Scanner) : Option Scanner := do
  let s ← s.saveKey
  let indent := match s.indents with
    | [] => 0
    | column :: _ => column + 1
  let scanned ← scanPlain s.inFlow indent [] (.blanks []) s.rest s.mark
  return { s.withScalar scanned true with keyAllowed := scanned.overBreak }

/-- The marks that no scalar without quotes begins with. -/
def marks : List Char := "-?:,[]{}#&*!|>'\"%@`".toList

def startsPlain (inFlow : Bool) (c : Char) (rest : List Char) : Bool :=
  !marks.contains c || (c == '-' && !rest.head?.any isBlank) ||
    (!inFlow && (c == '?' || c == ':') && !isGapOrEnd rest)

def token (s : Scanner) (c : Char) (rest : List Char) : Option Scanner :=
  let atColumnZero := s.mark.column == 0
  let loose := s.inFlow || isGapOrEnd rest
  if atColumnZero && c == '%' then s.directiveLine
  else if c == '-' && atDocumentMark s.mark (c :: rest) then s.documentMark .documentStart
  else if c == '.' && atDocumentMark s.mark (c :: rest) then s.documentMark .documentEnd
  else if c == '[' then s.openFlow .flowSequenceStart
  else if c == '{' then s.openFlow .flowMappingStart
  else if c == ']' then s.closeFlow .flowSequenceEnd
  else if c == '}' then s.closeFlow .flowMappingEnd
  else if c == ',' then s.commaMark
  else if c == '-' && isGapOrEnd rest then s.entryMark
  else if c == '?' && loose then s.keyMark
  else if c == ':' && loose then s.valueMark
  else if c == '*' then s.anchorName .alias
  else if c == '&' then s.anchorName .anchor
  else if c == '!' then s.tagMark
  else if c == '|' && !s.inFlow then s.blockScalar false
  else if c == '>' && !s.inFlow then s.blockScalar true
  else if c == '\'' then s.quotedScalar (scanSingle [] (.blanks []) false)
  else if c == '"' then s.quotedScalar (scanDouble [] (.blanks []) .text)
  else if !isBlank c && startsPlain s.inFlow c rest then s.plainScalar
  else none

/-- Reads tokens to the end, at most `count` of them. -/
def tokens? : (count : Nat) → Scanner → Option (List Token)
  | 0, _ => none
  | count + 1, s => do
    let s ← s.toNext
    match s.rest with
    | [] =>
      let s ← (s.closeWhile fun _ => true).dropKey
      return s.tokens.toList
    | c :: rest => tokens? count (← s.token c rest)

end Scanner

def tokens? (cs : List Char) : Option (List Token) := Scanner.tokens? (cs.length + 1) { rest := cs }

end StateCheck.Yaml
