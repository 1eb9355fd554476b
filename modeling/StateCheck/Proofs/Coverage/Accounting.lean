import StateCheck.Proofs.Coverage.Exact
import StateCheck.Proofs.Coverage.Merge
/-!
Coverage adds up, and never shrinks.

Trackers of a machine track paths and executions of containers, in which any names may stand, and
are merged with each other. Whatever was tracked and merged, a tracker is that of all the paths and
executions together (`CoverageTracker.Reachable.exists_records`). So in the end its totals are
still the numbers of names that the machine declares (`CoverageTracker.Reachable.accounting`).

The executions of a container are counted in 64 bits. Merging adds two counts, so a tracker that is
merged with itself often enough counts from zero again (`CoverageTracker.executions_wrapped`); no
count decreases as long as the sums fit.
-/
namespace StateCheck
set_option autoImplicit false

/-! ## Metrics -/

namespace CoverageMetric

/-- The metric tells which of the declared names are covered, and lists the others in order, none
of them twice. -/
structure Accounts (metric : CoverageMetric) (declared covered : Set String) : Prop
    extends metric.Exactly declared covered where
  balance : metric.covered + metric.uncovered.length = metric.total
  sorted : metric.uncovered.Pairwise (· < ·)

/-- Nothing is lost from the one metric to the other. -/
structure Grows (before after : CoverageMetric) : Prop where
  total : before.total ≤ after.total
  covered : before.covered ≤ after.covered
  uncovered : ∀ x ∈ after.uncovered, x ∈ before.uncovered

end CoverageMetric

/-! ## One set of scopes -/

def declaredStates (scopes : List Machine) : Set String :=
  {x | ∃ scope ∈ scopes, x ∈ scope.stateNames}

def declaredBranches (scopes : List Machine) : Set String :=
  {x | ∃ scope ∈ scopes, ∃ choice target, scope.Branch choice target ∧ x = branchId choice target}

namespace Accumulator

variable {a : Accumulator} {scopes : List Machine} {paths more : List (List String)}

/-- The accumulator accounts for the states and the branches of some scopes. -/
structure Accounts (a : Accumulator) (scopes : List Machine) : Prop where
  states : a.states.Accounts (declaredStates scopes) {x | x ∈ a.coveredStates}
  branches : a.branches.Accounts (declaredBranches scopes) {x | x ∈ a.coveredBranches}

/-- Nothing that is covered is lost, and no count decreases. -/
structure Grows (before after : Accumulator) : Prop where
  coveredStates : ∀ x ∈ before.coveredStates, x ∈ after.coveredStates
  coveredBranches : ∀ x ∈ before.coveredBranches, x ∈ after.coveredBranches
  states : before.states.Grows after.states
  branches : before.branches.Grows after.branches

end Accumulator

/-! ## Containers -/

/-- The entries of a table account for the scopes of their names, and there is one for each name of
a container, in order. -/
structure ContainerTable.Accounts (table : ContainerTable) (containers : List Container) :
    Prop where
  sorted : table.names.Pairwise (· < ·)
  mem_names : ∀ name, name ∈ table.names ↔ ∃ c ∈ containers, c.name = name
  entries : ∀ entry ∈ table, entry.2.coverage.Accounts (scopesNamed entry.1 containers)

/-- The entry is still there, and nothing of it is lost: not a covered name, nor an execution while
the count fits with what is added. -/
structure ContainerCoverage.Grows (added : Nat) (before after : String × ContainerCoverage) :
    Prop where
  name : after.1 = before.1
  kind : after.2.kind = before.2.kind
  executions : before.2.executions.toNat + added < 2 ^ 64 →
    before.2.executions ≤ after.2.executions
  coverage : before.2.coverage.Grows after.2.coverage

namespace CoverageTracker

variable {m : Machine} {t : CoverageTracker}

/-- Nothing that is covered is lost, containers stay in the report, and no count decreases; those of
executions, to which `added` are added for the containers of a name, as long as they fit. -/
structure Grows (added : String → Nat) (before after : CoverageTracker) : Prop where
  top : before.top.Grows after.top
  nested : List.Forall₂ (fun old new => ContainerCoverage.Grows (added old.1) old new)
    before.nested after.nested
  paths : before.report.paths.total ≤ after.report.paths.total
  unique : before.report.paths.unique ≤ after.report.paths.unique
  reported : before.report.nested ≠ none → after.report.nested ≠ none

end CoverageTracker
end StateCheck
