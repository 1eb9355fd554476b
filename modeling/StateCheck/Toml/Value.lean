import StateCheck.Toml.Table
/-!
Keys and values of a TOML document.

Strings, integers, truth values, arrays and inline tables are read. Dates and floats are refused.
-/
namespace StateCheck.Toml
set_option autoImplicit false

abbrev Read := StateT (List Char) Option

/-! ## Blanks and breaks -/

def isBlank (c : Char) : Bool := c == ' ' || c == '\t'

/-- Whether a character may stand in a comment or in a string on one line. -/
def isText (c : Char) : Bool := c == '\t' || (0x20 ≤ c.toNat && c != '\x7f')

def peek : Read (Option Char) := return (← get).head?

def skipBlanks : Read Unit := modify (·.dropWhile isBlank)

def take? (c : Char) : Read Bool := do
  match ← get with
  | d :: rest =>
    if d = c then
      set rest
      return true
    else return false
  | [] => return false

def expect (c : Char) : Read Unit := do
  if !(← take? c) then failure

def skipComment : Read Unit := do
  if (← peek) = some '#' then modify (·.dropWhile isText)

/-- Takes the break at the end of a line, or stands at the end of the text. -/
def lineEnd : Read Unit := do
  skipBlanks
  skipComment
  match ← get with
  | [] => return
  | '\n' :: rest | '\r' :: '\n' :: rest => set rest
  | _ => failure

/-- Skips blanks, breaks and comments, at most `count` of them. -/
def skipGap : (count : Nat) → Read Unit
  | 0 => return
  | count + 1 => do
    skipBlanks
    skipComment
    match ← get with
    | '\n' :: rest | '\r' :: '\n' :: rest =>
      set rest
      skipGap count
    | _ => return

/-! ## Strings -/

def escapes : List (Char × Char) := [
  ('b', '\x08'), ('t', '\t'), ('n', '\n'), ('f', '\x0c'), ('r', '\r'), ('"', '"'), ('\\', '\\')]

/-- How many hexadecimal digits follow a letter after a backslash. -/
def codeLengths : List (Char × Nat) := [('u', 4), ('U', 8)]

def digitValue? (base : Nat) (c : Char) : Option Nat :=
  let n :=
    if c.isDigit then c.toNat - '0'.toNat
    else if 'a' ≤ c ∧ c ≤ 'f' then c.toNat - 'a'.toNat + 10
    else if 'A' ≤ c ∧ c ≤ 'F' then c.toNat - 'A'.toNat + 10
    else base
  if n < base then some n else none

inductive StringMode where
  | text
  | escape
  | code (left value : Nat)
  /-- Behind a backslash at the end of a line, before the next word. -/
  | trim (overBreak : Bool)

/-- The quotes in front of the text, two at most: they belong to a string of many lines that ends
in front of them. -/
def extraQuotes (quote : Char) (cs : List Char) : List Char := (cs.take 2).takeWhile (· == quote)

/-- Reads the rest of a string with escapes, on one line or on many. -/
def readEscaped (many : Bool) (acc : List Char) (mode : StringMode) :
    List Char → Option (String × List Char)
  | [] => none
  | c :: rest =>
    match mode with
    | .escape =>
      match escapes.lookup c, codeLengths.lookup c with
      | some e, _ => readEscaped many (e :: acc) .text rest
      | none, some digits => readEscaped many acc (.code digits 0) rest
      | none, none =>
        if many && (isBlank c || c == '\n' || c == '\r') then
          readEscaped many acc (.trim (c == '\n')) rest
        else none
    | .code left value =>
      match digitValue? 16 c with
      | none => none
      | some d =>
        let value := value * 16 + d
        if 1 < left then readEscaped many acc (.code (left - 1) value) rest
        else if value.isValidChar then readEscaped many (Char.ofNat value :: acc) .text rest
        else none
    | .trim overBreak =>
      if isBlank c || c == '\r' then readEscaped many acc (.trim overBreak) rest
      else if c == '\n' then readEscaped many acc (.trim true) rest
      else if !overBreak then none
      else afterGap many acc c rest
    | .text => afterGap many acc c rest
where
  afterGap (many : Bool) (acc : List Char) (c : Char) (rest : List Char) :
      Option (String × List Char) :=
    if c == '\\' then readEscaped many acc .escape rest
    else if c == '"' then
      if !many then some (String.ofList acc.reverse, rest)
      else if rest.take 2 == ['"', '"'] then
        let extra := extraQuotes '"' (rest.drop 2)
        some (String.ofList (acc.reverse ++ extra), rest.drop (2 + extra.length))
      else readEscaped many (c :: acc) .text rest
    else if isText c || (many && c == '\n') then readEscaped many (c :: acc) .text rest
    else if many && c == '\r' && rest.head? == some '\n' then readEscaped many acc .text rest
    else none

/-- Reads the rest of a string without escapes, on one line or on many. -/
def readLiteral (many : Bool) (acc : List Char) : List Char → Option (String × List Char)
  | [] => none
  | c :: rest =>
    if c == '\'' then
      if !many then some (String.ofList acc.reverse, rest)
      else if rest.take 2 == ['\'', '\''] then
        let extra := extraQuotes '\'' (rest.drop 2)
        some (String.ofList (acc.reverse ++ extra), rest.drop (2 + extra.length))
      else readLiteral many (c :: acc) rest
    else if isText c || (many && c == '\n') then readLiteral many (c :: acc) rest
    else if many && c == '\r' && rest.head? == some '\n' then readLiteral many acc rest
    else none

def dropBreak : List Char → List Char
  | '\n' :: rest | '\r' :: '\n' :: rest => rest
  | cs => cs

def string? (manyAllowed : Bool) : Read (Option String) := fun cs =>
  let done (r : Option (String × List Char)) : Option (Option String × List Char) :=
    r.map fun (s, rest) => (some s, rest)
  match cs with
  | '"' :: rest =>
    if manyAllowed && rest.take 2 == ['"', '"'] then
      done (readEscaped true [] .text (dropBreak (rest.drop 2)))
    else done (readEscaped false [] .text rest)
  | '\'' :: rest =>
    if manyAllowed && rest.take 2 == ['\'', '\''] then
      done (readLiteral true [] (dropBreak (rest.drop 2)))
    else done (readLiteral false [] rest)
  | _ => some (none, cs)

/-! ## Keys -/

def isBareChar (c : Char) : Bool := c.isAlphanum || c == '_' || c == '-'

def simpleKey : Read String := do
  match ← string? false with
  | some s => return s
  | none =>
    let cs ← get
    let name := cs.takeWhile isBareChar
    if name.isEmpty then failure
    set (cs.drop name.length)
    return String.ofList name

/-- A dotted key, of at most `count` parts. -/
def dottedKey : (count : Nat) → Read (List String)
  | 0 => failure
  | count + 1 => do
    skipBlanks
    let key ← simpleKey
    skipBlanks
    if ← take? '.' then return key :: (← dottedKey count) else return [key]

/-! ## Values -/

/-- The value of digits in a base, with single underscores between them. -/
def ofDigits? (base : Nat) (cs : List Char) : Option Nat :=
  let groups := cs.splitOn '_'
  if groups.any List.isEmpty then none
  else groups.flatten.foldlM (fun n c => (digitValue? base c).map (n * base + ·)) 0

def integer? (word : List Char) : Option Int :=
  let decimal (cs : List Char) : Option Nat :=
    if cs.head? == some '0' && cs.length != 1 then none else ofDigits? 10 cs
  let n : Option Int := match word with
    | '0' :: 'x' :: rest => (ofDigits? 16 rest).map Int.ofNat
    | '0' :: 'o' :: rest => (ofDigits? 8 rest).map Int.ofNat
    | '0' :: 'b' :: rest => (ofDigits? 2 rest).map Int.ofNat
    | '-' :: rest => (decimal rest).map fun n => -(n : Int)
    | '+' :: rest => (decimal rest).map Int.ofNat
    | cs => (decimal cs).map Int.ofNat
  n.filter fun n => -(pow2 63 : Int) ≤ n && n < pow2 63

def wordValue? (word : List Char) : Option Json :=
  if word = "true".toList then some (.bool true)
  else if word = "false".toList then some (.bool false)
  else (integer? word).map fun n => .num (.int n)

def isWordChar (c : Char) : Bool := c.isAlphanum || c == '_' || c == '-' || c == '+'

mutual
def value : Nat → Read Node
  | 0 => failure
  | fuel + 1 => do
    match ← string? true with
    | some s => return .scalar (.str s) none
    | none =>
      if ← take? '[' then return .sequence true (← items fuel)
      if ← take? '\x7b' then
        skipBlanks
        if ← take? '\x7d' then return .mapping []
        return (Item.table .header (← pairs [] fuel)).toNode
      let cs ← get
      let word := cs.takeWhile isWordChar
      match wordValue? word with
      | some v =>
        set (cs.drop word.length)
        return .scalar v none
      | none => failure

def items : Nat → Read (List Node)
  | 0 => failure
  | fuel + 1 => do
    skipGap (fuel + 1)
    if ← take? ']' then return []
    let n ← value fuel
    skipGap (fuel + 1)
    if ← take? ',' then return n :: (← items fuel)
    expect ']'
    return [n]

def pairs (entries : Entries) : Nat → Read Entries
  | 0 => failure
  | fuel + 1 => do
    let path ← dottedKey (fuel + 1)
    expect '='
    skipBlanks
    let n ← value fuel
    skipBlanks
    match entries.assign path n with
    | none => failure
    | some entries =>
      if ← take? ',' then pairs entries fuel
      else
        expect '\x7d'
        return entries
end

end StateCheck.Toml
