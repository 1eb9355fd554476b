import StateCheck.Intrinsic.Eval
import StateCheck.Machine.Basic
import StateCheck.Mock.Engine
import StateCheck.Run.Context
import StateCheck.Run.Log
/-!
The steps of an execution.

A `Process` reads and changes a session (the mock engine and the source of drawn values), adds to a
log, and gives a value or a fault. What was logged before a fault stays logged.
-/
namespace StateCheck
set_option autoImplicit false

structure Session where
  engine : MockEngine
  entropy : Entropy

structure Outcome (α : Type) where
  result : Except Fault α
  log : Log
  session : Session

/-- The same end after what was logged before. -/
def Outcome.after {α : Type} (log : Log) (o : Outcome α) : Outcome α :=
  { o with log := log ++ o.log }

def Process (α : Type) := Session → Outcome α

namespace Process

variable {α β : Type}

def pure (a : α) : Process α := fun s => ⟨.ok a, [], s⟩

def bind (p : Process α) (f : α → Process β) : Process β := fun s =>
  let first := p s
  match first.result with
  | .error fault => ⟨.error fault, first.log, first.session⟩
  | .ok a => (f a first.session).after first.log

instance : Monad Process where
  pure := pure
  bind := bind

/-- A fault comes up. -/
def fail (fault : Fault) : Process α := fun s => ⟨.error fault, [.fault fault], s⟩

/-- A fault that came up before stands. -/
def rethrow (fault : Fault) : Process α := fun s => ⟨.error fault, [], s⟩

/-- An evaluation that draws nothing. -/
def eval (x : Except EvalError α) : Process α :=
  match x with
  | .ok a => pure a
  | .error e => fail (.ofEval e)

/-- An evaluation that may draw values. -/
def draw (x : Eval α) : Process α := fun s =>
  match x s.entropy with
  | .ok (a, entropy) => ⟨.ok a, [], { s with entropy }⟩
  | .error e => fail (.ofEval e) s

def call (state : String) (input : Json) : Process MockResponse := fun s =>
  let (response, engine) := s.engine.resolve state input
  ⟨.ok response, [], { s with engine }⟩

end Process

/-! ## Scopes -/

inductive Step where
  | next (target : String) (output : Json)
  | finish (output : Json)

namespace Step

def along (t : Transition) (output : Json) : Step :=
  match t with
  | .next target => .next target output
  | .finish => .finish output

end Step

/-- A fault with the state of the scope at which it ended the scope. -/
structure Located where
  fault : Fault
  state : String
deriving DecidableEq

/-- The run of one scope: its output or fault, and the states that it visited. -/
structure ScopeRun where
  output : Except Located Json
  path : List String
  log : Log
  session : Session

/-- How a state runs in a context and a scope, on its raw input. -/
abbrev StateRunner := Context → String → Json → Process Step

/-- How a scope runs in a context, under a label, on its input. -/
abbrev ScopeRunner := Context → String → Json → Session → ScopeRun

def childLabel (parent container : String) (index : Nat) : String :=
  if parent.isEmpty then s!"{container}[{index}]" else s!"{parent}/{container}[{index}]"

end StateCheck
