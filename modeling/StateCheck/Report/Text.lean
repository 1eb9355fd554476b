import StateCheck.Coverage.Tracker
import StateCheck.Report.Basic
/-!
Reports to be read by people.
-/
namespace StateCheck.Report.Text
set_option autoImplicit false

def left (width : Nat) (s : String) : String :=
  s ++ String.ofList (List.replicate (width - s.length) ' ')

def right (width : Nat) (s : String) : String :=
  String.ofList (List.replicate (width - s.length) ' ') ++ s

/-! ## Coverage -/

/-- The row of a metric, with the names of what is uncovered. -/
def metricRow (label : String) (m : CoverageMetric) : String :=
  let names := if m.uncovered.isEmpty then "" else "  uncovered: " ++ ", ".intercalate m.uncovered
  s!"{left 12 label}{right 4 (toString m.covered)}/{left 4 (toString m.total)} " ++
    s!"{right 6 (m.percentage.fixedText 2)}%{names}"

def nestedRows (name : String) (n : NestedCoverage) : List String := [
  s!"  {name} ({n.kind.word}, {n.executions} execution(s))",
  metricRow "    states" n.states,
  metricRow "    branches" n.branches]

def coverageRows (r : CoverageReport) : List String :=
  ["Coverage", metricRow "  states" r.states, metricRow "  branches" r.branches,
    "  " ++ left 10 "paths" ++ s!"{r.paths.total} total, {r.paths.unique} unique"] ++
  (r.nested.getD []).flatMap fun (name, n) => nestedRows name n

/-! ## Suites -/

def resultRows (r : TestResult) : List String :=
  match r.status with
  | .passed => [s!"  PASS  {r.name} ({r.duration}ms)"]
  | .failed => s!"  FAIL  {r.name} ({r.duration}ms)" :: (failureLines r).map ("        " ++ ·)
  | .skipped => [s!"  SKIP  {r.name} ({skipReason r})"]

def summaryRows (s : SuiteSummary) : List String :=
  let counts := s!"{s.passed} passed, {s.failed} failed, {s.skipped} skipped"
  s!"{s.total} tests: {counts} in {s.duration}ms" ::
    (s.slowest.map fun t => s!"slowest: {t.name} ({t.duration}ms)").toList

def suite (r : SuiteResult) : String :=
  unlines (r.suiteName :: r.results.flatMap resultRows ++ "" :: summaryRows r.summary ++
    (match r.coverage with
      | some c => "" :: coverageRows c
      | none => []))

/-! ## Single runs -/

def outcomeRow (error : Option TraceError) : String :=
  match error with
  | none => "SUCCEEDED"
  | some e =>
    "FAILED  " ++ e.error ++ (match e.cause with
      | some cause => s!": {cause}"
      | none => "") ++ (match e.state with
      | some state => s!" (at {state})"
      | none => "")

def trace (t : ExecutionTrace) : String :=
  unlines ([outcomeRow t.error, "path: " ++ pathSeparator.intercalate t.executionPath] ++
    t.mapExecutions.map (fun m => s!"map {m.state}: {m.iterationPaths.length} iteration(s)") ++
    t.parallelExecutions.map (fun p => s!"parallel {p.state}: {p.branchPaths.length} branch(es)") ++
    t.retries.map (fun r =>
      s!"retry {r.state} #{r.attempt} after {r.error}: {r.delaySeconds.plainText}s") ++
    if t.success then ["output:", t.output.pretty] else [])

end StateCheck.Report.Text
