import StateCheck.Json.Basic
/-!
Reading JSON text.

The text is cut into tokens one character at a time (`Scanner.step`), and the tokens are put
together on a stack of open containers (`Builder.step`); both passes are folds, so reading ends on
every text. `Json.read?` accepts exactly one value, nested at most 127 deep. Of a repeated key the
last value stays.
-/
namespace StateCheck
set_option autoImplicit false

namespace Json

inductive Token where
  | openArray
  | closeArray
  | openObject
  | closeObject
  | comma
  | colon
  | text (value : String)
  | scalar (value : Json)

/-! ## Tokens -/

namespace Scanner

/-- What the characters being read belong to. Characters are kept in reverse. -/
inductive Mode where
  | between
  | word (chars : List Char)
  | text (chars : List Char)
  | escape (chars : List Char)
  /-- Four hexadecimal digits: those still missing, the value so far, and a first half before. -/
  | unicode (chars : List Char) (missing : Nat) (value : Nat) (high : Option Nat)
  /-- A first half wants a second one: whether its backslash has been read. -/
  | secondHalf (chars : List Char) (high : Nat) (slash : Bool)

structure State where
  mode : Mode := .between
  tokens : List Token := []

def isBlank (c : Char) : Bool := c == ' ' || c == '\n' || c == '\t' || c == '\r'

def isWordChar (c : Char) : Bool := c.isAlphanum || c == '-' || c == '+' || c == '.'

def wordValue? (word : List Char) : Option Json :=
  if word = ['t', 'r', 'u', 'e'] then some (.bool true)
  else if word = ['f', 'a', 'l', 's', 'e'] then some (.bool false)
  else if word = ['n', 'u', 'l', 'l'] then some .null
  else (Number.read? word).map .num

def stepBetween (tokens : List Token) (c : Char) : Option State :=
  if isBlank c then some { tokens }
  else if c = '[' then some { tokens := .openArray :: tokens }
  else if c = ']' then some { tokens := .closeArray :: tokens }
  else if c = '\x7b' then some { tokens := .openObject :: tokens }
  else if c = '\x7d' then some { tokens := .closeObject :: tokens }
  else if c = ',' then some { tokens := .comma :: tokens }
  else if c = ':' then some { tokens := .colon :: tokens }
  else if c = '"' then some { mode := .text [], tokens }
  else if isWordChar c then some { mode := .word [c], tokens }
  else none

def escaped? (c : Char) : Option Char :=
  match c with
  | '"' => some '"'
  | '\\' => some '\\'
  | '/' => some '/'
  | 'b' => some '\x08'
  | 'f' => some '\x0c'
  | 'n' => some '\n'
  | 'r' => some '\r'
  | 't' => some '\t'
  | _ => none

def hexValue? (c : Char) : Option Nat :=
  if c.isDigit then some (c.toNat - '0'.toNat)
  else if 'a' ≤ c ∧ c ≤ 'f' then some (c.toNat - 'a'.toNat + 10)
  else if 'A' ≤ c ∧ c ≤ 'F' then some (c.toNat - 'A'.toNat + 10)
  else none

/-- The mode after four hexadecimal digits: a character, or the first half of one. -/
def afterUnicode? (chars : List Char) (value : Nat) (high : Option Nat) : Option Mode :=
  match high with
  | some h =>
    if 0xDC00 ≤ value ∧ value < 0xE000 then
      some (.text (Char.ofNat (0x10000 + (h - 0xD800) * 0x400 + (value - 0xDC00)) :: chars))
    else none
  | none =>
    if 0xD800 ≤ value ∧ value < 0xDC00 then some (.secondHalf chars value false)
    else if 0xDC00 ≤ value ∧ value < 0xE000 then none
    else some (.text (Char.ofNat value :: chars))

def step (s : State) (c : Char) : Option State :=
  match s.mode with
  | .between => stepBetween s.tokens c
  | .word chars =>
    if isWordChar c then some { s with mode := .word (c :: chars) }
    else (wordValue? chars.reverse).bind fun v => stepBetween (.scalar v :: s.tokens) c
  | .text chars =>
    if c = '"' then some { tokens := .text (String.ofList chars.reverse) :: s.tokens }
    else if c = '\\' then some { s with mode := .escape chars }
    else if c.toNat < 32 then none
    else some { s with mode := .text (c :: chars) }
  | .escape chars =>
    if c = 'u' then some { s with mode := .unicode chars 4 0 none }
    else (escaped? c).map fun e => { s with mode := .text (e :: chars) }
  | .unicode chars missing value high =>
    (hexValue? c).bind fun digit =>
      let value := value * 16 + digit
      if missing ≤ 1 then (afterUnicode? chars value high).map fun mode => { s with mode }
      else some { s with mode := .unicode chars (missing - 1) value high }
  | .secondHalf chars high slash =>
    if slash then
      if c = 'u' then some { s with mode := .unicode chars 4 0 (some high) } else none
    else if c = '\\' then some { s with mode := .secondHalf chars high true }
    else none

def finish (s : State) : Option (List Token) :=
  match s.mode with
  | .between => some s.tokens.reverse
  | .word chars => (wordValue? chars.reverse).map fun v => (.scalar v :: s.tokens).reverse
  | _ => none

end Scanner

def tokens? (cs : List Char) : Option (List Token) :=
  (cs.foldlM Scanner.step {}).bind Scanner.finish

/-! ## Values -/

namespace Builder

/-- A container that is still open, its contents in reverse. -/
inductive Frame where
  | array (items : List Json)
  | object (entries : List (String × Json)) (key : String)

inductive Want where
  | value
  | valueOrClose
  | keyOrClose
  | key
  | colon
  | commaOrClose
  | nothing (result : Json)

structure State where
  stack : List Frame := []
  want : Want := .value

def maxDepth : Nat := 127

/-- A finished value goes into the innermost container or is the result. -/
def place (stack : List Frame) (v : Json) : State :=
  match stack with
  | [] => ⟨[], .nothing v⟩
  | .array items :: rest => ⟨.array (v :: items) :: rest, .commaOrClose⟩
  | .object entries key :: rest => ⟨.object ((key, v) :: entries) key :: rest, .commaOrClose⟩

def push (stack : List Frame) (frame : Frame) (want : Want) : Option State :=
  if stack.length < maxDepth then some ⟨frame :: stack, want⟩ else none

def stepValue (stack : List Frame) : Token → Option State
  | .scalar v => some (place stack v)
  | .text s => some (place stack (.str s))
  | .openArray => push stack (.array []) .valueOrClose
  | .openObject => push stack (.object [] "") .keyOrClose
  | _ => none

def step (s : State) (t : Token) : Option State :=
  match s.want, t, s.stack with
  | .value, t, stack => stepValue stack t
  | .valueOrClose, .closeArray, .array _ :: rest => some (place rest (.arr []))
  | .valueOrClose, t, stack => stepValue stack t
  | .keyOrClose, .closeObject, .object _ _ :: rest => some (place rest .empty)
  | .keyOrClose, .text key, .object entries _ :: rest
  | .key, .text key, .object entries _ :: rest =>
    some ⟨.object entries key :: rest, .colon⟩
  | .colon, .colon, stack => some ⟨stack, .value⟩
  | .commaOrClose, .comma, .array items :: rest => some ⟨.array items :: rest, .value⟩
  | .commaOrClose, .comma, .object entries key :: rest => some ⟨.object entries key :: rest, .key⟩
  | .commaOrClose, .closeArray, .array items :: rest => some (place rest (.arr items.reverse))
  | .commaOrClose, .closeObject, .object entries _ :: rest =>
    some (place rest (.object entries.reverse))
  | _, _, _ => none

end Builder

def ofTokens? (tokens : List Token) : Option Json :=
  match tokens.foldlM Builder.step {} with
  | some ⟨[], .nothing v⟩ => some v
  | _ => none

/-- The value of a JSON text; none when the text is not one well-formed value. -/
def read? (text : String) : Option Json := (tokens? text.toList).bind ofTokens?

end Json
end StateCheck
