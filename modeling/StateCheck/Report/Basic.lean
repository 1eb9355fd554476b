import StateCheck.Json.Printer
import StateCheck.Suite.Result
/-!
What the reports on a suite share.
-/
namespace StateCheck.Report
set_option autoImplicit false

def linesOfFailure (f : AssertionFailure) : List String :=
  f.message :: (f.expected.map fun v => s!"  expected: {v.compact}").toList ++
    (f.actual.map fun v => s!"  actual:   {v.compact}").toList

def failureLines (r : TestResult) : List String := r.failures.flatMap linesOfFailure

def skipReason (r : TestResult) : String := r.skipReason.getD "skipped"

def document (v : Json) : String := v.pretty ++ "\n"

def unlines (lines : List String) : String := String.join (lines.map (· ++ "\n"))

end StateCheck.Report
