/-!
The characters of scalars: words with gaps between them, in quotes or without, and blocks of lines.

A gap of blanks on one line stays as it is. A gap with a line break is folded: one break becomes a
blank, of more breaks all but the first stay (`Gap.text`). In a block, folding is the choice of the
writer, and the indentation of its first line is that of the block.
-/
namespace StateCheck.Yaml
set_option autoImplicit false

/-! ## Characters and places -/

def isBlank (c : Char) : Bool := c == ' ' || c == '\t'

/-- The line feed and the two Unicode separators; the other breaks are read as line feeds. -/
def isBreak (c : Char) : Bool := c == '\n' || c == '\u2028' || c == '\u2029'

/-- Whether a word cannot go on: at a blank, a break or the end. -/
def isGapOrEnd (cs : List Char) : Bool := cs.head?.all fun c => isBlank c || isBreak c

structure Mark where
  index : Nat
  line : Nat
  column : Nat
deriving DecidableEq, Repr, Inhabited

namespace Mark

def after (m : Mark) (c : Char) : Mark :=
  if isBreak c then ⟨m.index + 1, m.line + 1, 0⟩ else ⟨m.index + 1, m.line, m.column + 1⟩

def afterAll (m : Mark) (cs : List Char) : Mark := cs.foldl after m

end Mark

def atDocumentMark (m : Mark) (cs : List Char) : Bool :=
  m.column == 0 && (["---".toList, "...".toList].contains (cs.take 3)) && isGapOrEnd (cs.drop 3)

structure Scanned where
  text : String
  rest : List Char
  mark : Mark
  overBreak : Bool := false

/-! ## Gaps -/

/-- What stands between two words. Characters are kept in reverse. -/
inductive Gap where
  | blanks (cs : List Char)
  | breaks (first : Option Char) (others : List Char)

namespace Gap

def isEmpty : Gap → Bool
  | blanks [] => true
  | _ => false

def hasBreak : Gap → Bool
  | blanks _ => false
  | breaks _ _ => true

/-- A gap with one more blank or break; blanks next to a break are dropped. -/
def add : Gap → Char → Gap
  | blanks cs, c => if isBreak c then breaks (some c) [] else blanks (c :: cs)
  | breaks first others, c => breaks first (if isBreak c then c :: others else others)

/-- What a gap leaves between the words, in reverse. -/
def text : Gap → List Char
  | blanks cs => cs
  | breaks (some '\n') [] => [' ']
  | breaks (some '\n') others => others
  | breaks first others => others ++ first.toList

end Gap

/-! ## Words without quotes -/

/-- The brackets and the comma that end a word inside a flow collection. -/
def isFlowMark (c : Char) : Bool := [',', '[', ']', '{', '}'].contains c

/-- Reads a scalar without quotes. A word ends at `: `, and inside brackets at their marks; the
scalar ends at a comment and outside of brackets at a line indented less than `indent`. -/
def scanPlain (inFlow : Bool) (indent : Nat) (acc : List Char) (gap : Gap) :
    List Char → Mark → Option Scanned
  | [], m => some ⟨String.ofList acc.reverse, [], m, gap.hasBreak⟩
  | c :: rest, m =>
    let ended : Option Scanned := some ⟨String.ofList acc.reverse, c :: rest, m, gap.hasBreak⟩
    if isBlank c || isBreak c then
      if gap.hasBreak && c == '\t' && m.column < indent then none
      else scanPlain inFlow indent acc (gap.add c) rest (m.after c)
    else if !gap.isEmpty &&
        (c == '#' || atDocumentMark m (c :: rest) || (!inFlow && m.column < indent)) then ended
    else if inFlow && c == ':' && rest.head?.any (fun d => isFlowMark d || d == '?') then none
    else if (c == ':' && isGapOrEnd rest) || (inFlow && isFlowMark c) then ended
    else scanPlain inFlow indent (c :: (gap.text ++ acc)) (.blanks []) rest (m.after c)

/-! ## Words in quotes -/

/-- Reads the rest of a scalar in single quotes, where a quote is written twice. -/
def scanSingle (acc : List Char) (gap : Gap) (quoteOpen : Bool) : List Char → Mark → Option Scanned
  | [], m => if quoteOpen then some ⟨String.ofList acc.reverse, [], m, false⟩ else none
  | c :: rest, m =>
    if quoteOpen then
      if c == '\'' then scanSingle ('\'' :: acc) (.blanks []) false rest (m.after c)
      else some ⟨String.ofList acc.reverse, c :: rest, m, false⟩
    else if isBlank c || isBreak c then scanSingle acc (gap.add c) false rest (m.after c)
    else if atDocumentMark m (c :: rest) then none
    else if c == '\'' then scanSingle (gap.text ++ acc) (.blanks []) true rest (m.after c)
    else scanSingle (c :: (gap.text ++ acc)) (.blanks []) false rest (m.after c)

def escapes : List (Char × Char) := [
  ('0', '\x00'), ('a', '\x07'), ('b', '\x08'), ('t', '\t'), ('\t', '\t'), ('n', '\n'),
  ('v', '\x0b'), ('f', '\x0c'), ('r', '\r'), ('e', '\x1b'), (' ', ' '), ('"', '"'), ('/', '/'),
  ('\\', '\\'), ('N', '\u0085'), ('_', '\u00a0'), ('L', '\u2028'), ('P', '\u2029')]

/-- How many hexadecimal digits follow a letter after a backslash. -/
def codeLengths : List (Char × Nat) := [('x', 2), ('u', 4), ('U', 8)]

inductive QuoteMode where
  | text
  | escape
  /-- Inside a code with digits left to read and a value so far. -/
  | code (left value : Nat)

def hexValue? (c : Char) : Option Nat :=
  if c.isDigit then some (c.toNat - '0'.toNat)
  else if 'a' ≤ c ∧ c ≤ 'f' then some (c.toNat - 'a'.toNat + 10)
  else if 'A' ≤ c ∧ c ≤ 'F' then some (c.toNat - 'A'.toNat + 10)
  else none

/-- Reads the rest of a scalar in double quotes, with its escapes. -/
def scanDouble (acc : List Char) (gap : Gap) (mode : QuoteMode) : List Char → Mark → Option Scanned
  | [], _ => none
  | c :: rest, m =>
    match mode with
    | .text =>
      if isBlank c || isBreak c then scanDouble acc (gap.add c) .text rest (m.after c)
      else if atDocumentMark m (c :: rest) then none
      else
        let acc := gap.text ++ acc
        if c == '"' then some ⟨String.ofList acc.reverse, rest, m.after c, false⟩
        else if c == '\\' then scanDouble acc (.blanks []) .escape rest (m.after c)
        else scanDouble (c :: acc) (.blanks []) .text rest (m.after c)
    | .escape =>
      if isBreak c then scanDouble acc (.breaks none []) .text rest (m.after c)
      else match escapes.lookup c, codeLengths.lookup c with
        | some e, _ => scanDouble (e :: acc) (.blanks []) .text rest (m.after c)
        | none, some digits => scanDouble acc (.blanks []) (.code digits 0) rest (m.after c)
        | none, none => none
    | .code left value =>
      match hexValue? c with
      | none => none
      | some d =>
        let value := value * 16 + d
        if 1 < left then scanDouble acc gap (.code (left - 1) value) rest (m.after c)
        else if value.isValidChar then
          scanDouble (Char.ofNat value :: acc) gap .text rest (m.after c)
        else none

/-! ## Blocks of lines -/

inductive Chomp where
  | strip
  | clip
  | keep
deriving DecidableEq, Repr

/-- The settings of a block; an indentation of zero is found from its first line. -/
structure BlockHeader where
  chomp : Chomp := .clip
  indentation : Nat := 0

/-- Reads the settings behind the mark of a block, each at most once. -/
def scanHeader (h : BlockHeader) (chomped indented : Bool) :
    List Char → Option (BlockHeader × List Char)
  | [] => some (h, [])
  | c :: rest =>
    if c == '+' && !chomped then scanHeader { h with chomp := .keep } true indented rest
    else if c == '-' && !chomped then scanHeader { h with chomp := .strip } true indented rest
    else if c.isDigit && !indented then
      if c == '0' then none
      else scanHeader { h with indentation := c.toNat - '0'.toNat } chomped true rest
    else some (h, c :: rest)

def headerEnd (cs : List Char) : Option (List Char) :=
  match cs.dropWhile isBlank with
  | [] => some []
  | c :: rest =>
    if c == '#' then some (rest.dropWhile (!isBreak ·))
    else if isBreak c then some (c :: rest)
    else none

/-- Skips the indentation and the empty lines in front of a line of a block, with the widest
indentation and the breaks in reverse. -/
def leadIn (indent widest : Nat) (breaks : List Char) :
    List Char → Mark → Option (Nat × List Char × List Char × Mark)
  | [], m => some (max widest m.column, breaks, [], m)
  | c :: rest, m =>
    let isOpen := indent == 0 || m.column < indent
    if isOpen && c == ' ' then leadIn indent widest breaks rest (m.after c)
    else if isOpen && c == '\t' then none
    else if isBreak c then leadIn indent (max widest m.column) (c :: breaks) rest (m.after c)
    else some (max widest m.column, breaks, c :: rest, m)

/-- A block that is being read. Characters are kept in reverse. -/
structure BlockState where
  acc : List Char := []
  lastBreak : List Char := []
  breaks : List Char
  /-- Whether the last line starts with a blank, which keeps its breaks. -/
  wasIndented : Bool := false

namespace BlockState

/-- The block with the breaks in front of a new line, folded when `fold` asks for it. -/
def withBreaks (s : BlockState) (fold isIndented : Bool) : List Char :=
  let joins := fold && s.lastBreak == ['\n'] && !s.wasIndented && !isIndented
  let between := if joins then (if s.breaks.isEmpty then [' '] else []) else s.lastBreak
  s.breaks ++ (between ++ s.acc)

def finish (s : BlockState) (chomp : Chomp) : String :=
  String.ofList (match chomp with
    | .strip => s.acc
    | .clip => s.lastBreak ++ s.acc
    | .keep => s.breaks ++ (s.lastBreak ++ s.acc)).reverse

end BlockState

/-- Reads lines of a block as long as they have its indentation, at most `lines` of them. -/
def scanLines (fold : Bool) (chomp : Chomp) (indent : Nat) (s : BlockState) :
    (lines : Nat) → List Char → Mark → Option Scanned
  | 0, _, _ => none
  | lines + 1, cs, m =>
    match cs with
    | [] => some ⟨s.finish chomp, [], m, false⟩
    | c :: _ =>
      if m.column ≠ indent then some ⟨s.finish chomp, cs, m, false⟩
      else
        let line := cs.takeWhile (!isBreak ·)
        let behind := cs.dropWhile (!isBreak ·)
        let acc := line.reverse ++ s.withBreaks fold (isBlank c)
        let m := (m.afterAll line).afterAll (behind.take 1)
        match leadIn indent 0 [] (behind.drop 1) m with
        | none => none
        | some (_, breaks, rest, m) =>
          let next : BlockState :=
            { acc, lastBreak := behind.take 1, breaks, wasIndented := isBlank c }
          scanLines fold chomp indent next lines rest m

/-- Reads a block behind its mark; `parent` is the indentation around it, if there is any. -/
def scanBlock (fold : Bool) (parent : Option Nat) (cs : List Char) (m : Mark) : Option Scanned := do
  let (header, rest) ← scanHeader {} false false cs
  let behind ← headerEnd rest
  let m := m.afterAll (cs.take (cs.length - behind.length))
  let fixed := if header.indentation = 0 then 0 else header.indentation + parent.getD 0
  let (widest, breaks, lines, m) ← leadIn fixed 0 [] (behind.drop 1) (m.afterAll (behind.take 1))
  let least := match parent with
    | some n => n + 1
    | none => 1
  let indent := if fixed = 0 then max widest least else fixed
  scanLines fold header.chomp indent { breaks } (lines.length + 1) lines m

end StateCheck.Yaml
