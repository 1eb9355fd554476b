import StateCheck.Coverage.Report
import StateCheck.Suite.Verdict
/-!
The results of a suite, which the reports are made from.
-/
namespace StateCheck
set_option autoImplicit false

inductive TestStatus where
  | passed
  | failed
  | skipped
deriving DecidableEq, Repr

namespace TestStatus

def word : TestStatus → String
  | passed => "passed"
  | failed => "failed"
  | skipped => "skipped"

end TestStatus

/-- The result of one case; a skipped case has a reason and no trace. -/
structure TestResult where
  name : String
  status : TestStatus
  /-- In milliseconds. -/
  duration : Nat
  failures : List AssertionFailure
  skipReason : Option String
  trace : Option ExecutionTrace

namespace TestResult

def skipped (name reason : String) : TestResult :=
  ⟨name, .skipped, 0, [], some reason, none⟩

end TestResult

structure SlowestTest where
  name : String
  duration : Nat
deriving DecidableEq, Repr

structure SuiteSummary where
  total : Nat
  passed : Nat
  failed : Nat
  skipped : Nat
  /-- Of the whole run, in milliseconds. -/
  duration : Nat
  slowest : Option SlowestTest

namespace SuiteSummary

/-- The slower of two results, the later of two equals. -/
def slower (a : Option SlowestTest) (r : TestResult) : Option SlowestTest :=
  match a with
  | none => some ⟨r.name, r.duration⟩
  | some s => if s.duration ≤ r.duration then some ⟨r.name, r.duration⟩ else some s

def count (status : TestStatus) (results : List TestResult) : Nat :=
  results.countP (·.status == status)

def tally (results : List TestResult) (duration : Nat) : SuiteSummary where
  total := results.length
  passed := count .passed results
  failed := count .failed results
  skipped := count .skipped results
  duration
  slowest := (results.filter (·.status != .skipped)).foldl slower none

end SuiteSummary

structure SuiteResult where
  suiteName : String
  /-- One per case, in the order in which the suite has them. -/
  results : List TestResult
  summary : SuiteSummary
  coverage : Option CoverageReport

namespace SuiteResult

def allPassed (r : SuiteResult) : Bool := r.summary.failed == 0

def failures (r : SuiteResult) : List TestResult := r.results.filter (·.status == .failed)

end SuiteResult

/-! ## As a document -/

def TestResult.toJson (r : TestResult) : Json :=
  .obj ([("name", .str r.name), ("status", .str r.status.word),
      ("durationMs", Json.ofNat r.duration)] ++
    Json.listEntry "failures" (r.failures.map (·.toJson)) ++
    Json.optionalEntry "skipReason" (r.skipReason.map .str) ++
    Json.optionalEntry "trace" (r.trace.map (·.toJson)))

def SlowestTest.toJson (s : SlowestTest) : Json :=
  .obj [("name", .str s.name), ("durationMs", Json.ofNat s.duration)]

def SuiteSummary.toJson (s : SuiteSummary) : Json :=
  .obj ([("total", Json.ofNat s.total), ("passed", Json.ofNat s.passed),
    ("failed", Json.ofNat s.failed), ("skipped", Json.ofNat s.skipped),
    ("durationMs", Json.ofNat s.duration)] ++
    Json.optionalEntry "slowestTest" (s.slowest.map (·.toJson)))

def SuiteResult.toJson (r : SuiteResult) : Json :=
  .obj ([("suiteName", .str r.suiteName), ("results", .arr (r.results.map (·.toJson))),
    ("summary", r.summary.toJson)] ++ Json.optionalEntry "coverage" (r.coverage.map (·.toJson)))

end StateCheck
