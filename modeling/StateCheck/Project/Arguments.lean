import StateCheck.Number.Natural
import StateCheck.Report.Format
/-!
The arguments of the command line.
-/
namespace StateCheck
set_option autoImplicit false

inductive TraceFormat where
  | text
  | json
deriving DecidableEq, Repr

inductive Command where
  | validate (definition : String)
  | run (definition : String) (input mock : Option String) (output : TraceFormat)
    (seed maxSteps : Option Nat)
  | test (suite : String) (reporter : ReportFormat) (coverage : Bool)
    (maxConcurrency : Option Nat) (bail : Bool) (seed : Option Nat)
deriving DecidableEq, Repr

structure Invocation where
  config : Option String
  verbose : Bool
  quiet : Bool
  command : Command
deriving DecidableEq, Repr

/-- Arguments sorted into words, flags and options with values. -/
structure Arguments where
  words : List String := []
  flags : List String := []
  values : List (String × String) := []

namespace Arguments

def flagNames : List (String × String) :=
  [("-v", "verbose"), ("--verbose", "verbose"), ("--quiet", "quiet"), ("--coverage", "coverage"),
    ("--bail", "bail")]

def valueNames : List String :=
  ["--config", "--input", "--mock", "--output", "--seed", "--max-steps", "--reporter",
    "--max-concurrency"]

def joined? (argument : String) : Option (String × String) :=
  let cs := argument.toList
  let name := cs.takeWhile (· != '=')
  if name.length < cs.length then
    some (String.ofList name, String.ofList (cs.drop (name.length + 1)))
  else none

/-- Sorts arguments; behind two dashes all are words. -/
def sort? (a : Arguments) : List String → Option Arguments
  | [] => some { a with words := a.words.reverse }
  | "--" :: rest => some { a with words := a.words.reverse ++ rest }
  | argument :: rest =>
    match flagNames.lookup argument with
    | some flag => sort? { a with flags := flag :: a.flags } rest
    | none =>
      if valueNames.contains argument then
        match rest with
        | value :: rest => sort? { a with values := (argument, value) :: a.values } rest
        | [] => none
      else if argument.startsWith "--" then
        match joined? argument with
        | some (name, value) =>
          if valueNames.contains name then
            sort? { a with values := (name, value) :: a.values } rest
          else none
        | none => none
      else sort? { a with words := argument :: a.words } rest

def value? (a : Arguments) (name : String) : Option String := a.values.lookup name

def number? (a : Arguments) (name : String) : Option (Option Nat) :=
  match a.value? name with
  | none => some none
  | some text => (Natural.read? text.toList).map some

def choice? {α : Type} (a : Arguments) (name : String) (words : List (String × α)) (default : α) :
    Option α :=
  match a.value? name with
  | none => some default
  | some text => words.lookup text

def usesOnly (a : Arguments) (flags values : List String) : Bool :=
  a.flags.all (("verbose" :: "quiet" :: flags).contains ·) &&
    a.values.all fun (name, _) => ("--config" :: values).contains name

def command? (a : Arguments) : Option Command :=
  match a.words with
  | ["validate", definition] => if a.usesOnly [] [] then some (.validate definition) else none
  | ["run", definition] => do
    if !a.usesOnly [] ["--input", "--mock", "--output", "--seed", "--max-steps"] then none
    let output ← a.choice? "--output" [("text", TraceFormat.text), ("json", .json)] .text
    let seed ← a.number? "--seed"
    let maxSteps ← a.number? "--max-steps"
    return .run definition (a.value? "--input") (a.value? "--mock") output seed maxSteps
  | ["test", suite] => do
    if !a.usesOnly ["coverage", "bail"] ["--reporter", "--max-concurrency", "--seed"] then none
    let reporter ← a.choice? "--reporter" ReportFormat.words .text
    let maxConcurrency ← a.number? "--max-concurrency"
    let seed ← a.number? "--seed"
    return .test suite reporter (a.flags.contains "coverage") maxConcurrency
      (a.flags.contains "bail") seed
  | _ => none

end Arguments

namespace Invocation

def parse? (arguments : List String) : Option Invocation := do
  let a ← Arguments.sort? {} arguments
  let command ← a.command?
  return {
    config := a.value? "--config"
    verbose := a.flags.contains "verbose"
    quiet := a.flags.contains "quiet"
    command }

end Invocation
end StateCheck
