import StateCheck.EvalError
import StateCheck.Intrinsic.Syntax
import StateCheck.Text.Alphanumeric
import StateCheck.Text.Blank
/-!
Reading intrinsic expressions.

A reader takes the characters that are left and gives what it read with the characters after it,
or the flaw with the characters left where it was noticed; positions are counted from those. Calls
nest, so the reader of calls carries a bound on its steps that `parse` sets beyond the length of
the text.
-/
namespace StateCheck
set_option autoImplicit false

namespace Intrinsic

/-- What a reader gives unless it notices a flaw, which comes with the characters left. -/
abbrev Read := Except (SyntaxFlaw × List Char)

def skipBlanks (cs : List Char) : List Char := cs.dropWhile Text.isBlank

def isNameChar (c : Char) : Bool := Text.isAlphanumeric c || c == '.' || c == '_'

/-- The characters of a token up to the next `,` or `)` outside quotes and brackets, with the
characters from there on. -/
def splitToken (depth : Nat) (quote : Option Char) : List Char → List Char × List Char
  | [] => ([], [])
  | c :: rest =>
    let keep (depth : Nat) (quote : Option Char) : List Char × List Char :=
      let (token, left) := splitToken depth quote rest
      (c :: token, left)
    match quote with
    | some q => keep depth (if c = q then none else some q)
    | none =>
      if c = '\'' ∨ c = '"' then keep depth (some c)
      else if c = '[' ∨ c = '(' then keep (depth + 1) none
      else if c = ']' then keep (depth - 1) none
      else if c = ')' then (if depth = 0 then ([], c :: rest) else keep (depth - 1) none)
      else if c = ',' ∧ depth = 0 then ([], c :: rest)
      else keep depth none

def readToken (cs : List Char) : List Char × List Char :=
  let (token, left) := splitToken 0 none cs
  (Text.trim token, left)

/-- The characters of a quoted text after its opening quote. A backslash keeps the quote and itself
from their meaning; before any other character both stay. -/
def readQuoted : List Char → Read (List Char × List Char)
  | [] => .error (.unterminatedString, [])
  | ['\\'] => .error (.unterminatedEscape, [])
  | '\\' :: c :: rest => do
    let (text, left) ← readQuoted rest
    return (if c = '\'' ∨ c = '\\' then c :: text else '\\' :: c :: text, left)
  | c :: rest =>
    if c = '\'' then .ok ([], rest)
    else do
      let (text, left) ← readQuoted rest
      return (c :: text, left)

def wordLiteral? (word : List Char) : Option Json :=
  if word = ['t', 'r', 'u', 'e'] then some (.bool true)
  else if word = ['f', 'a', 'l', 's', 'e'] then some (.bool false)
  else if word = ['n', 'u', 'l', 'l'] then some .null
  else none

def expect (c : Char) (cs : List Char) : Read (List Char) :=
  match cs with
  | [] => .error (.missing c, [])
  | d :: rest => if d = c then .ok rest else .error (.missing c, rest)

mutual
def readCall : Nat → List Char → Read (Call × List Char)
  | 0, cs => .error (.noCall, cs)
  | steps + 1, cs =>
    let name := cs.takeWhile isNameChar
    let left := cs.dropWhile isNameChar
    if !namePrefix.isPrefixOf name then .error (.noCall, left)
    else do
      let left ← expect '(' (skipBlanks left)
      match skipBlanks left with
      | ')' :: rest => return (⟨String.ofList name, []⟩, rest)
      | left => do
        let (args, left) ← readArgs steps left
        return (⟨String.ofList name, args⟩, left)

/-- Arguments up to the closing parenthesis; at least one. -/
def readArgs : Nat → List Char → Read (List Arg × List Char)
  | 0, cs => .error (.noArgument, cs)
  | steps + 1, cs => do
    let (arg, left) ← readArg steps (skipBlanks cs)
    match skipBlanks left with
    | ',' :: rest => do
      let (args, left) ← readArgs steps rest
      return (arg :: args, left)
    | ')' :: rest => return ([arg], rest)
    | [] => .error (.noSeparator, [])
    | _ :: rest => .error (.noSeparator, rest)

def readArg : Nat → List Char → Read (Arg × List Char)
  | 0, cs => .error (.noArgument, cs)
  | _ + 1, [] => .error (.noArgument, [])
  | steps + 1, c :: rest =>
    if c = '\'' then do
      let (text, left) ← readQuoted rest
      return (.text (String.ofList text), left)
    else if c = '$' then
      let (token, left) := readToken (c :: rest)
      .ok (.path (String.ofList token), left)
    else if c.isAlpha then
      let (word, left) := readToken (c :: rest)
      match wordLiteral? word with
      | some v => .ok (.literal v, left)
      | none => do
        let (call, left) ← readCall steps (c :: rest)
        return (.call call.name call.args, left)
    else if c = '-' ∨ c.isDigit then
      let (token, left) := readToken (c :: rest)
      match Number.read? token with
      | some n => .ok (.literal (.num n), left)
      | none => .error (.badNumber (String.ofList token), left)
    else .error (.noArgument, c :: rest)
end

def parse (text : String) : Except EvalError Call :=
  let cs := text.toList
  let fail (flaw : SyntaxFlaw) (left : List Char) : Except EvalError Call :=
    .error (.intrinsicFailure text (.malformed flaw (cs.length - left.length)))
  match readCall (2 * cs.length + 4) (skipBlanks cs) with
  | .error (flaw, left) => fail flaw left
  | .ok (call, left) =>
    let left := skipBlanks left
    if left.isEmpty then .ok call else fail .trailing left

/-- Whether a text is meant as an intrinsic call and not as a path. -/
def isIntrinsic (text : String) : Bool := namePrefix.isPrefixOf (skipBlanks text.toList)

end Intrinsic
end StateCheck
