import StateCheck.Report.Junit
import StateCheck.Report.Tap
import StateCheck.Report.Text
/-!
The formats of the report on a suite.
-/
namespace StateCheck
set_option autoImplicit false

inductive ReportFormat where
  | text
  | json
  | junit
  | tap
deriving DecidableEq, Repr

namespace ReportFormat

def words : List (String × ReportFormat) :=
  [("text", .text), ("json", .json), ("junit", .junit), ("tap", .tap)]

end ReportFormat

namespace SuiteResult

def report (format : ReportFormat) (r : SuiteResult) : String :=
  match format with
  | .text => Report.Text.suite r
  | .json => Report.document r.toJson
  | .junit => Report.Junit.suite r
  | .tap => Report.Tap.suite r

end SuiteResult
end StateCheck
