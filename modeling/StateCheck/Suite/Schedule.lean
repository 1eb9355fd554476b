import StateCheck.Suite.Case
/-!
Running the cases of a suite side by side.

One spawner goes through the cases in order. It passes over the cases that are not to run, takes a
permit for every other one, looks whether the run was cancelled and starts a worker. A worker runs
its case, cancels the run when the case failed and failures stop it, and gives its permit back. When
the spawner is through, it joins the workers as they come and keeps their results.
`SuiteProgress.after?` says what each of these moves does and when it is possible; a schedule is
a list of moves (`SuiteProgress.follow?`). `SuiteRun.run` makes the moves of a worker as soon as
they are possible, so that it runs one case after the other.
-/
namespace StateCheck
set_option autoImplicit false

/-- A suite that is run with some options; case number `i` takes `elapsed i` milliseconds. -/
structure SuiteRun where
  suite : PreparedSuite
  options : RunOptions
  elapsed : Nat → Nat := fun _ => 0

structure SuiteProgress where
  /-- The number of the case that the spawner looks at. -/
  next : Nat
  /-- Whether the spawner has a permit for that case. -/
  holding : Bool
  /-- The started cases that have not finished. -/
  running : List Nat
  /-- The finished cases whose workers still have their permits. -/
  leaving : List (Nat × CaseRun)
  /-- The finished cases whose workers gave their permits back and were not joined. -/
  exited : List (Nat × CaseRun)
  /-- The results so far, by the number of the case. -/
  slots : List (Option CaseRun)
  cancelled : Bool

/-- A move of the spawner at the next case, of the worker of a case, or of the spawner that joins
the worker of a case. -/
inductive SuiteMove where
  | spawn
  | finish (index : Nat)
  | release (index : Nat)
  | join (index : Nat)
deriving DecidableEq, Repr

namespace SuiteRun

def cases (r : SuiteRun) : List TestCase := r.suite.suite.testCases

/-- The most cases that may run at once. -/
def permits (r : SuiteRun) : Nat := max r.options.maxConcurrency 1

def skipReason? (r : SuiteRun) (case : TestCase) : Option String :=
  if case.skip then some "marked skip"
  else if r.suite.suite.isFocused && !case.only then some "not marked only"
  else none

def runAlone (r : SuiteRun) (index : Nat) (case : TestCase) : CaseRun :=
  r.suite.runCase case r.options (r.elapsed index)

def stops (r : SuiteRun) (done : CaseRun) : Bool :=
  r.options.stopOnFailure && done.result.status == .failed

def start (r : SuiteRun) (cancelled : Bool) : SuiteProgress where
  next := 0
  holding := false
  running := []
  leaving := []
  exited := []
  slots := r.cases.map fun _ => none
  cancelled

end SuiteRun

namespace SuiteProgress

def permitsOut (p : SuiteProgress) : Nat :=
  p.running.length + p.leaving.length + if p.holding then 1 else 0

/-- The result of the case that the spawner looks at, which it leaves behind. -/
def skip (p : SuiteProgress) (case : TestCase) (reason : String) : SuiteProgress :=
  { p with
    next := p.next + 1
    holding := false
    slots := p.slots.set p.next (some (.skipped case reason)) }

def spawn? (r : SuiteRun) (p : SuiteProgress) (case : TestCase) : Option SuiteProgress :=
  match r.skipReason? case with
  | some reason => some (p.skip case reason)
  | none =>
    if !p.holding then
      if p.permitsOut < r.permits then some { p with holding := true } else none
    else if p.cancelled then some (p.skip case "cancelled")
    else some { p with next := p.next + 1, holding := false, running := p.running ++ [p.next] }

/-- What a move leads to, none when it is not possible. -/
def after? (r : SuiteRun) (p : SuiteProgress) : SuiteMove → Option SuiteProgress
  | .spawn => r.cases[p.next]?.bind (p.spawn? r)
  | .finish index =>
    match r.cases[index]? with
    | some case =>
      if index ∈ p.running then
        let done := r.runAlone index case
        some { p with
          running := p.running.erase index
          leaving := p.leaving ++ [(index, done)]
          cancelled := p.cancelled || r.stops done }
      else none
    | none => none
  | .release index =>
    match p.leaving.lookup index with
    | some done =>
      some { p with
        leaving := p.leaving.filter (·.1 != index)
        exited := p.exited ++ [(index, done)] }
    | none => none
  | .join index =>
    if p.next = r.cases.length then
      match p.exited.lookup index with
      | some done =>
        some { p with
          exited := p.exited.filter (·.1 != index)
          slots := p.slots.set index (some done) }
      | none => none
    else none

/-- What a list of moves leads to, none when one of them is not possible. -/
def follow? (r : SuiteRun) : List SuiteMove → SuiteProgress → Option SuiteProgress
  | [], p => some p
  | m :: rest, p => (p.after? r m).bind (follow? r rest)

def isDone (r : SuiteRun) (p : SuiteProgress) : Bool :=
  p.next == r.cases.length && p.running.isEmpty && p.leaving.isEmpty && p.exited.isEmpty

/-- The move that comes next when workers go first. -/
def workerFirst (r : SuiteRun) (p : SuiteProgress) : SuiteMove :=
  match p.leaving, p.running, p.exited with
  | (index, _) :: _, _, _ => .release index
  | [], index :: _, _ => .finish index
  | [], [], [] => .spawn
  | [], [], (index, _) :: _ => if p.next < r.cases.length then .spawn else .join index

/-- Moves with the workers first, as long as a move is possible and at most so often. -/
def advance (r : SuiteRun) : Nat → SuiteProgress → SuiteProgress
  | 0, p => p
  | moves + 1, p =>
    match p.after? r (p.workerFirst r) with
    | some next => advance r moves next
    | none => p

/-- The results in the order of the cases; all of them have to be there. -/
def collect : Nat → List (Option CaseRun) → Except SuiteError (List CaseRun)
  | _, [] => .ok []
  | index, none :: _ => .error (.noResult index)
  | index, some done :: rest => (collect (index + 1) rest).map (done :: ·)

/-- The result of a suite from the runs of its cases: the counts, and the coverage of all runs. -/
def summarize (r : SuiteRun) (total : Nat) (runs : List CaseRun) : SuiteResult :=
  let results := runs.map (·.result)
  let tracker := (runs.filterMap (·.coverage)).foldl CoverageTracker.merge
    (CoverageTracker.start r.suite.definition)
  { suiteName := r.suite.suite.name
    results
    summary := .tally results total
    coverage := if r.options.coverage then some tracker.report else none }

def result (r : SuiteRun) (total : Nat) (p : SuiteProgress) : Except SuiteError SuiteResult :=
  (collect 0 p.slots).map (summarize r total)

end SuiteProgress

namespace SuiteRun

/-- The moves that a case takes: a permit, the start, the end, the return of the permit, the join. -/
def movesPerCase : Nat := 5

/-- A whole run, one case after the other. -/
def finished (r : SuiteRun) (cancelled : Bool) : SuiteProgress :=
  (r.start cancelled).advance r (movesPerCase * r.cases.length)

def run (r : SuiteRun) (cancelled : Bool) (total : Nat) : Except SuiteError SuiteResult :=
  (r.finished cancelled).result r total

end SuiteRun
end StateCheck
