import StateCheck.Coverage.Report
import StateCheck.Run.Trace
/-!
Tracking which states and which branches of choices the paths of executions cover.

A tracker declares the states and branches of a machine once and then only adds: tracking and
merging never take anything away. Paths inside containers count for the container's name, whichever
scope of it they came from.
-/
namespace StateCheck
set_option autoImplicit false

/-- The name of the branch from a Choice state to a target. -/
def branchId (choice target : String) : String := choice ++ "->" ++ target

def pathSeparator : String := " -> "

/-! ## One set of scopes -/

/-- What is known and what is covered of a set of scopes. -/
structure Accumulator where
  knownStates : NameSet := .empty
  knownBranches : NameSet := .empty
  totalStates : Nat := 0
  totalBranches : Nat := 0
  coveredStates : NameSet := .empty
  coveredBranches : NameSet := .empty

namespace Accumulator

def branchesOf (s : State) : List String := s.kind.choiceTargets.map (branchId s.name)

def declare (a : Accumulator) (scope : Machine) : Accumulator :=
  let knownStates := a.knownStates.insertAll scope.stateNames
  let knownBranches := a.knownBranches.insertAll (scope.states.flatMap branchesOf)
  { a with
    knownStates, knownBranches
    totalStates := knownStates.size, totalBranches := knownBranches.size }

/-- The moves from one state of a path to the next, as branch names. -/
def movesOf (path : List String) : List String := List.zipWith branchId path (path.drop 1)

def observe (a : Accumulator) (path : List String) : Accumulator :=
  { a with
    coveredStates := a.coveredStates.insertAll (path.filter (· ∈ a.knownStates))
    coveredBranches := a.coveredBranches.insertAll ((movesOf path).filter (· ∈ a.knownBranches)) }

def merge (a b : Accumulator) : Accumulator where
  knownStates := a.knownStates.union b.knownStates
  knownBranches := a.knownBranches.union b.knownBranches
  totalStates := max a.totalStates b.totalStates
  totalBranches := max a.totalBranches b.totalBranches
  coveredStates := a.coveredStates.union b.coveredStates
  coveredBranches := a.coveredBranches.union b.coveredBranches

def states (a : Accumulator) : CoverageMetric := .ofSets a.totalStates a.knownStates a.coveredStates

def branches (a : Accumulator) : CoverageMetric :=
  .ofSets a.totalBranches a.knownBranches a.coveredBranches

end Accumulator

/-! ## Containers -/

structure ContainerCoverage where
  kind : ContainerKind
  /-- How often containers of the name ran, in 64 bits: the count wraps around. -/
  executions : UInt64 := 0
  coverage : Accumulator := {}

/-- Container coverages in the order of their names. -/
abbrev ContainerTable := List (String × ContainerCoverage)

namespace ContainerTable

/-- The entry of a name changed by `f`, or a new entry at its sorted place. -/
def upsert (name : String) (fresh : ContainerCoverage) (f : ContainerCoverage → ContainerCoverage) :
    ContainerTable → ContainerTable
  | [] => [(name, fresh)]
  | (n, c) :: rest =>
    if name = n then (n, f c) :: rest
    else if name < n then (name, fresh) :: (n, c) :: rest
    else (n, c) :: upsert name fresh f rest

/-- One more container with its scopes; containers of one name share an entry and its kind. -/
def declare (table : ContainerTable) (c : Container) : ContainerTable :=
  let known (a : Accumulator) : Accumulator := c.scopes.foldl Accumulator.declare a
  table.upsert c.name { kind := c.kind, coverage := known {} }
    fun entry => { entry with coverage := known entry.coverage }

/-- One execution of a container, with the paths of its scopes; unknown names are passed over. -/
def observe (name : String) (paths : List (List String)) (table : ContainerTable) :
    ContainerTable :=
  table.map fun (n, c) =>
    if n = name then
      let coverage := paths.foldl Accumulator.observe c.coverage
      (n, { c with executions := c.executions + 1, coverage })
    else (n, c)

def merge (ours theirs : ContainerTable) : ContainerTable :=
  theirs.foldl (fun table (name, c) =>
    table.upsert name c fun entry =>
      { entry with
        executions := entry.executions + c.executions
        coverage := entry.coverage.merge c.coverage }) ours

end ContainerTable

/-! ## Tracker -/

structure CoverageTracker where
  top : Accumulator
  nested : ContainerTable
  nestedTracked : Bool := false
  paths : List (List String) := []

namespace CoverageTracker

def start (m : Machine) : CoverageTracker where
  top := ({} : Accumulator).declare m
  nested := m.containers.foldl ContainerTable.declare []

def trackExecution (t : CoverageTracker) (path : List String) : CoverageTracker :=
  { t with top := t.top.observe path, paths := t.paths ++ [path] }

def trackNested (t : CoverageTracker) (name : String) (paths : List (List String)) :
    CoverageTracker :=
  { t with nested := t.nested.observe name paths, nestedTracked := true }

def trackMapExecutions (t : CoverageTracker) (executions : List MapExecution) : CoverageTracker :=
  executions.foldl (fun t e => t.trackNested e.state e.iterationPaths) t

def trackParallelExecutions (t : CoverageTracker) (executions : List ParallelExecution) :
    CoverageTracker :=
  executions.foldl (fun t e => t.trackNested e.state e.branchPaths) t

def trackTrace (t : CoverageTracker) (trace : ExecutionTrace) : CoverageTracker :=
  ((t.trackExecution trace.executionPath).trackMapExecutions
    trace.mapExecutions).trackParallelExecutions trace.parallelExecutions

def merge (t other : CoverageTracker) : CoverageTracker where
  top := t.top.merge other.top
  nested := t.nested.merge other.nested
  nestedTracked := t.nestedTracked || other.nestedTracked
  paths := t.paths ++ other.paths

/-- The texts of a list, each where it first comes. -/
def firstOccurrences (texts : List String) : List String :=
  texts.foldl (fun seen text => if seen.contains text then seen else seen ++ [text]) []

def report (t : CoverageTracker) : CoverageReport :=
  let uniquePaths := firstOccurrences (t.paths.map pathSeparator.intercalate)
  { states := t.top.states
    branches := t.top.branches
    paths := { total := t.paths.length, unique := uniquePaths.length, uniquePaths }
    nested :=
      if t.nestedTracked then
        some (t.nested.map fun (name, c) =>
          (name, ⟨c.kind, c.executions, c.coverage.states, c.coverage.branches⟩))
      else none }

end CoverageTracker
end StateCheck
