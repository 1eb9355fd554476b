import StateCheck.Report.Basic
/-!
Reports in the format of the Test Anything Protocol, version 14.
-/
namespace StateCheck.Report.Tap
set_option autoImplicit false

/-- The lines of a text; a carriage return in front of a break belongs to the break, and no line
follows the last break. -/
def textLines (current : List Char) : List Char → List String
  | [] => if current.isEmpty then [] else [String.ofList current.reverse]
  | '\n' :: rest =>
    let line := match current with
      | '\r' :: before => before
      | line => line
    String.ofList line.reverse :: textLines [] rest
  | c :: rest => textLines (c :: current) rest

/-- Whether a result counts as passed; skipped ones do. -/
def isOk (r : TestResult) : Bool := r.status != .failed

def resultLine (number : Nat) (r : TestResult) : String :=
  (if isOk r then "ok " else "not ok ") ++ s!"{number} - {r.name}" ++
    if r.status == .skipped then s!" # SKIP {skipReason r}" else ""

def commentLines (r : TestResult) : List String :=
  if r.status == .failed then
    (textLines [] ("\n".intercalate (failureLines r)).toList).map ("  # " ++ ·)
  else []

def resultLines (number : Nat) : List TestResult → List String
  | [] => []
  | r :: rest => resultLine number r :: commentLines r ++ resultLines (number + 1) rest

def suite (r : SuiteResult) : String :=
  unlines (["TAP version 14", s!"1..{r.results.length}"] ++ resultLines 1 r.results ++
    [s!"# tests {r.results.length}", s!"# pass  {r.results.countP isOk}",
      s!"# fail  {r.results.countP (!isOk ·)}"])

end StateCheck.Report.Tap
