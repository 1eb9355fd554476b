import StateCheck.Chunks
import StateCheck.Entropy
import StateCheck.Intrinsic.Reader
import StateCheck.Path.Basic
import StateCheck.Json.Reader
import StateCheck.Text.Base64
import StateCheck.Text.Sha2
/-!
The values of intrinsic calls.

Arguments are evaluated from left to right and then given to the function that the call names
(`Intrinsic.Function`). `States.Format` sees its template as it was written, escapes included.
-/
namespace StateCheck
set_option autoImplicit false

abbrev Eval := StateT Entropy (Except EvalError)

namespace Intrinsic

inductive Function where
  | array
  | stringToJson
  | jsonToString
  | arrayPartition
  | arrayContains
  | arrayRange
  | arrayGetItem
  | arrayLength
  | arrayUnique
  | base64Encode
  | base64Decode
  | hash
  | jsonMerge
  | mathRandom
  | mathAdd
  | stringSplit
  | uuid
deriving DecidableEq, Repr

namespace Function

/-- The functions with their names; `States.Format` stands apart. -/
def table : List (String × Function) := [
  ("States.Array", array), ("States.StringToJson", stringToJson),
  ("States.JsonToString", jsonToString), ("States.ArrayPartition", arrayPartition),
  ("States.ArrayContains", arrayContains), ("States.ArrayRange", arrayRange),
  ("States.ArrayGetItem", arrayGetItem), ("States.ArrayLength", arrayLength),
  ("States.ArrayUnique", arrayUnique), ("States.Base64Encode", base64Encode),
  ("States.Base64Decode", base64Decode), ("States.Hash", hash), ("States.JsonMerge", jsonMerge),
  ("States.MathRandom", mathRandom), ("States.MathAdd", mathAdd),
  ("States.StringSplit", stringSplit), ("States.UUID", uuid)]

def ofName? (name : String) : Option Function := table.lookup name

end Function

/-! ## Arguments of a kind -/

abbrev Checked := Except CallFlaw

def needString (v : Json) : Checked String :=
  match v.asString? with
  | some s => .ok s
  | none => .error (.notString v.kindName)

def needArray (v : Json) : Checked (List Json) :=
  match v.asArray? with
  | some items => .ok items
  | none => .error (.notArray v.kindName)

def needInteger (v : Json) : Checked Int :=
  match v.asInteger? with
  | some n => .ok n
  | none => .error (.notInteger v.compact)

def need1 {α : Type} (args : List Json) (f : Json → Checked α) : Checked α :=
  match args with
  | [a] => f a
  | _ => .error (.arity 1 args.length)

def need2 {α : Type} (args : List Json) (f : Json → Json → Checked α) : Checked α :=
  match args with
  | [a, b] => f a b
  | _ => .error (.arity 2 args.length)

def need3 {α : Type} (args : List Json) (f : Json → Json → Json → Checked α) : Checked α :=
  match args with
  | [a, b, c] => f a b c
  | _ => .error (.arity 3 args.length)

/-! ## Single functions -/

/-- The item of a range that comes after `i`, if it is a signed 64-bit integer. -/
def nextItem? (step i : Int) : Option Int :=
  if -(pow2 63 : Int) ≤ i + step ∧ i + step < pow2 63 then some (i + step) else none

/-- The integers from `start` in steps of `step` that do not pass `stop`; none when there are more
than `limit`. Where the next would not be a signed 64-bit integer, they end. -/
def range? (stop step : Int) : Nat → Int → Option (List Int)
  | limit, i =>
    if (0 < step ∧ stop < i) ∨ (step < 0 ∧ i < stop) then some []
    else match limit with
      | 0 => none
      | limit + 1 =>
        match nextItem? step i with
        | some next => (range? stop step limit next).map (i :: ·)
        | none => some [i]

def rangeLimit : Nat := 1000

def unique (items : List Json) : List Json :=
  items.foldl (fun kept v => if kept.any (·.same v) then kept else kept ++ [v]) []

/-- The parts of a text between delimiter characters, empty parts included. -/
def parts (delimiters : List Char) : List Char → List (List Char)
  | [] => [[]]
  | c :: rest =>
    match parts delimiters rest with
    | [] => [[c]]
    | part :: more => if delimiters.contains c then [] :: part :: more else (c :: part) :: more

def digest? (algorithm : String) : Option (List UInt8 → List UInt8) :=
  if algorithm = "SHA-256" then some Sha2.sha256
  else if algorithm = "SHA-384" then some Sha2.sha384
  else if algorithm = "SHA-512" then some Sha2.sha512
  else none

def decodeUtf8? (bytes : List UInt8) : Option String := String.fromUTF8? ⟨bytes.toArray⟩

def sum (a b : Json) : Checked Json :=
  match a, b with
  | .num x, .num y =>
    match x.add? y with
    | .ok (some n) => .ok (.num n)
    | .ok none => .ok .null
    | .error .outOfRange => .error .numberOutOfRange
    | .error .overflow => .error .sumOverflow
  | _, _ => .error (.notNumbers a.kindName b.kindName)

/-! ## Templates -/

/-- How a value stands in a formatted text; arrays and objects have no such text. -/
def printed (v : Json) : Checked (List Char) :=
  match v with
  | .str s => .ok s.toList
  | .arr _ | .obj _ => .error (.unprintable v.kindName)
  | v => .ok v.compact.toList

/-- A template with its placeholders `{}` replaced by the values in turn; escaped braces lose their
backslash. -/
def interpolate : List Char → List Json → Checked (List Char)
  | [], [] => .ok []
  | [], _ :: _ => .error .tooManyArguments
  | '\\' :: '\x7b' :: rest, values => (interpolate rest values).map ('\x7b' :: ·)
  | '\\' :: '\x7d' :: rest, values => (interpolate rest values).map ('\x7d' :: ·)
  | '\x7b' :: '\x7d' :: rest, values =>
    match values with
    | [] => .error .tooFewArguments
    | v :: values => do
      let text ← printed v
      let more ← interpolate rest values
      return text ++ more
  | c :: rest, values => (interpolate rest values).map (c :: ·)

/-- A text without the backslashes before one kind of brace. -/
def unescape (brace : Char) : List Char → List Char
  | [] => []
  | [c] => [c]
  | c :: d :: rest =>
    if c = '\\' ∧ d = brace then brace :: unescape brace rest else c :: unescape brace (d :: rest)

/-- A quoted argument as a value: first opening and then closing braces lose their backslash. -/
def unescapeBraces (raw : String) : String :=
  String.ofList (unescape '\x7d' (unescape '\x7b' raw.toList))

/-! ## Calls -/

namespace Function

/-- The value of a function that draws nothing. -/
def value (f : Function) (args : List Json) : Checked Json :=
  match f with
  | array => .ok (.arr args)
  | stringToJson => need1 args fun s => do
    match Json.read? (← needString s) with
    | some v => .ok v
    | none => .error .badText
  | jsonToString => need1 args fun v => .ok (.str v.compact)
  | arrayPartition => need2 args fun items size => do
    let items ← needArray items
    let size ← needInteger size
    if size ≤ 0 then .error .chunkSize
    else .ok (.arr ((chunks size.toNat items).map .arr))
  | arrayContains => need2 args fun items v => do
    let items ← needArray items
    .ok (.bool (items.any (·.same v)))
  | arrayRange => need3 args fun start stop step => do
    let start ← needInteger start
    let stop ← needInteger stop
    let step ← needInteger step
    if step = 0 then .error .zeroStep
    else match range? stop step rangeLimit start with
      | some items => .ok (.arr (items.map Json.ofInt))
      | none => .error .rangeTooLong
  | arrayGetItem => need2 args fun items index => do
    let items ← needArray items
    let index ← needInteger index
    match (if 0 ≤ index then items[index.toNat]? else none) with
    | some v => .ok v
    | none => .error (.indexOutOfBounds index)
  | arrayLength => need1 args fun items => do
    .ok (Json.ofNat (← needArray items).length)
  | arrayUnique => need1 args fun items => do
    .ok (.arr (unique (← needArray items)))
  | base64Encode => need1 args fun s => do
    let s ← needString s
    .ok (.str (String.ofList (Base64.encode s.toUTF8.toList)))
  | base64Decode => need1 args fun s => do
    let s ← needString s
    match (Base64.decode? s.toList).bind decodeUtf8? with
    | some text => .ok (.str text)
    | none => .error .badText
  | hash => need2 args fun data algorithm => do
    let text := match data with
      | .str s => s
      | v => v.compact
    let algorithm ← needString algorithm
    match digest? algorithm with
    | some digest => .ok (.str (Sha2.hex (digest text.toUTF8.toList)))
    | none => .error (.unknownAlgorithm algorithm)
  | jsonMerge => need3 args fun left right deep => do
    if !deep.same (.bool false) then .error .deepMerge
    else match left, right with
      | .obj a, .obj b => .ok (.obj (Fields.union a b))
      | _, _ => .error .mergeKinds
  | mathAdd => need2 args sum
  | stringSplit => need2 args fun s delimiters => do
    let s ← needString s
    let delimiters ← needString delimiters
    let found := (parts delimiters.toList s.toList).filter (!·.isEmpty)
    .ok (.arr (found.map fun part => .str (String.ofList part)))
  | mathRandom | uuid => .ok .null

/-- The value of any function; two of them draw. -/
def apply (f : Function) (name : String) (args : List Json) : Eval Json := fun e =>
  let checked {α : Type} (c : Checked α) : Except EvalError α :=
    c.mapError (EvalError.intrinsicFailure name)
  match f with
  | mathRandom => do
    let (low, high) ← checked (match args with
      | [low, high] | [low, high, _] => do
        let low ← needInteger low
        let high ← needInteger high
        return (low, high)
      | _ => .error (.randomArity args.length))
    let (n, e) := e.integerBetween low high
    return (Json.ofInt n, e)
  | uuid =>
    if args.isEmpty then
      let (id, e) := e.uuid
      .ok (.str id, e)
    else .error (.intrinsicFailure name (.arity 0 args.length))
  | f => do
    let v ← checked (f.value args)
    return (v, e)

end Function

def formatName : String := "States.Format"

def format (template : String) (values : List Json) : Except EvalError Json :=
  match interpolate template.toList values with
  | .ok text => .ok (.str (String.ofList text))
  | .error flaw => .error (.intrinsicFailure formatName flaw)

mutual
def Arg.eval (docs : Documents) : Arg → Eval Json
  | .text raw => pure (.str (unescapeBraces raw))
  | .literal v => pure v
  | .path text => StateT.lift (Path.resolve text docs)
  | .call name args =>
    if name = formatName then evalFormat docs args
    else do
      let values ← evalArgs docs args
      match Function.ofName? name with
      | some f => f.apply name values
      | none => throw (.unsupportedIntrinsic name)

def evalArgs (docs : Documents) : List Arg → Eval (List Json)
  | [] => pure []
  | a :: rest => do
    let v ← a.eval docs
    let more ← evalArgs docs rest
    return v :: more

def evalFormat (docs : Documents) : List Arg → Eval Json
  | [] => throw (.intrinsicFailure formatName .noTemplate)
  | .text raw :: rest => do
    let values ← evalArgs docs rest
    StateT.lift (format raw values)
  | a :: rest => do
    match ← a.eval docs with
    | .str template => do
      let values ← evalArgs docs rest
      StateT.lift (format template values)
    | v => throw (.intrinsicFailure formatName (.templateKind v.kindName))
end

def evaluate (text : String) (docs : Documents) : Eval Json := do
  let call ← StateT.lift (parse text)
  (Arg.call call.name call.args).eval docs

end Intrinsic
end StateCheck
