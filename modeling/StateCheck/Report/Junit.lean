import StateCheck.Number.Shortest
import StateCheck.Report.Basic
/-!
Reports in the XML format of JUnit.

Every text that a suite brings along is escaped, so that only the report itself writes markup.
-/
namespace StateCheck.Report.Junit
set_option autoImplicit false

/-- A character as an entity when markup gives it a meaning. -/
def escapeChar (c : Char) : List Char :=
  match c with
  | '&' => "&amp;".toList
  | '<' => "&lt;".toList
  | '>' => "&gt;".toList
  | '"' => "&quot;".toList
  | '\'' => "&apos;".toList
  | c => [c]

def escape (s : String) : String := String.ofList (s.toList.flatMap escapeChar)

def withAttr (name value : String) : String := s!" {name}=\"{escape value}\""

/-- Milliseconds as seconds with three decimals. -/
def seconds (milliseconds : Nat) : String :=
  (Binary64.ofNat milliseconds / Binary64.ofNat 1000).fixedText 3

/-- The message at the head of a failed case: that of its first mismatch. -/
def headline (r : TestResult) : String := (r.failures.head?.map (·.message)).getD "failed"

def statusLines (r : TestResult) : List String :=
  match r.status with
  | .passed => []
  | .failed =>
    ["    <failure" ++ withAttr "message" (headline r) ++ ">" ++
      escape ("\n".intercalate (failureLines r)) ++ "</failure>"]
  | .skipped => ["    <skipped" ++ withAttr "message" (skipReason r) ++ "/>"]

def caseLines (suiteName : String) (r : TestResult) : List String :=
  ("  <testcase" ++ withAttr "name" r.name ++ withAttr "classname" suiteName ++
    withAttr "time" (seconds r.duration) ++ ">") :: statusLines r ++ ["  </testcase>"]

def suiteLine (r : SuiteResult) : String :=
  "<testsuite" ++ withAttr "name" r.suiteName ++ withAttr "tests" (toString r.summary.total) ++
    withAttr "failures" (toString r.summary.failed) ++
    withAttr "skipped" (toString r.summary.skipped) ++
    withAttr "time" (seconds r.summary.duration) ++ ">"

def suite (r : SuiteResult) : String :=
  unlines ("<?xml version=\"1.0\" encoding=\"UTF-8\"?>" :: suiteLine r ::
    r.results.flatMap (caseLines r.suiteName) ++ ["</testsuite>"])

end StateCheck.Report.Junit
