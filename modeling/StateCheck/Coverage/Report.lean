import StateCheck.Coverage.NameSet
import StateCheck.Machine.Basic
/-!
Coverage reports: how much of a machine was covered, and what was not.
-/
namespace StateCheck
set_option autoImplicit false

structure CoverageMetric where
  total : Nat
  covered : Nat
  /-- In percent with two decimals; an empty whole is covered. -/
  percentage : Binary64
  uncovered : List String

namespace CoverageMetric

/-- A share in percent, rounded to two decimals and at most 100. -/
def percentageOf (covered total : Nat) : Binary64 :=
  let hundred := Binary64.ofNat 100
  if total = 0 then hundred
  else
    let share := (Binary64.ofNat covered / Binary64.ofNat total * hundred).minimum hundred
    (share * hundred).roundAway / hundred

def ofSets (total : Nat) (known covered : NameSet) : CoverageMetric where
  total
  covered := covered.size
  percentage := percentageOf covered.size total
  uncovered := known.diff covered

def isComplete (m : CoverageMetric) : Bool := m.uncovered.isEmpty && m.total ≤ m.covered

end CoverageMetric

structure PathStats where
  total : Nat
  unique : Nat
  /-- The different paths as texts, in the order in which they first came. -/
  uniquePaths : List String

structure NestedCoverage where
  kind : ContainerKind
  executions : UInt64
  states : CoverageMetric
  branches : CoverageMetric

structure CoverageReport where
  states : CoverageMetric
  branches : CoverageMetric
  paths : PathStats
  /-- The coverage of the containers by name, once an execution of a container was tracked. -/
  nested : Option (List (String × NestedCoverage))

/-! ## As a document -/

def CoverageMetric.toJson (m : CoverageMetric) : Json :=
  .obj [("total", Json.ofNat m.total), ("covered", Json.ofNat m.covered),
    ("percentage", Json.ofBinary64 m.percentage), ("uncovered", Json.ofStrings m.uncovered)]

def PathStats.toJson (p : PathStats) : Json :=
  .obj [("total", Json.ofNat p.total), ("unique", Json.ofNat p.unique),
    ("uniquePaths", Json.ofStrings p.uniquePaths)]

def NestedCoverage.toJson (n : NestedCoverage) : Json :=
  .obj [("kind", .str n.kind.word), ("executions", Json.ofNat n.executions.toNat),
    ("states", n.states.toJson), ("branches", n.branches.toJson)]

def CoverageReport.toJson (r : CoverageReport) : Json :=
  .obj ([("states", r.states.toJson), ("branches", r.branches.toJson), ("paths", r.paths.toJson)] ++
    (r.nested.map fun nested =>
      ("nested", Json.obj (nested.map fun (name, n) => (name, n.toJson)))).toList)

end StateCheck
