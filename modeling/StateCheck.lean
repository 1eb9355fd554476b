import StateCheck.Main
import StateCheck.Proofs.Chunks
import StateCheck.Proofs.Machine.Depth
import StateCheck.Proofs.Run.Plain
import StateCheck.Proofs.Template.Steady
import StateCheck.Proofs.Run.Step
import StateCheck.Proofs.Run.Turns
import StateCheck.Proofs.Run.Simulation
import StateCheck.Proofs.Run.Course
import StateCheck.Proofs.Run.Walk
import StateCheck.Proofs.Run.Conservation
import StateCheck.Proofs.Run.Moves
import StateCheck.Proofs.Run.Fatal
import StateCheck.Proofs.Run.Ceiling
import StateCheck.Proofs.Run.Isolation
import StateCheck.Proofs.Run.Aggregation
import StateCheck.Proofs.Mock.Counts
import StateCheck.Proofs.Run.Requests
import StateCheck.Proofs.Run.Balance
import StateCheck.Proofs.Coverage.Names
import StateCheck.Proofs.Coverage.Tracked
import StateCheck.Proofs.Coverage.Declared
import StateCheck.Proofs.Coverage.Merge
import StateCheck.Proofs.Machine.Distinct
import StateCheck.Proofs.Coverage.Branch
import StateCheck.Proofs.Coverage.Records
import StateCheck.Proofs.Coverage.Exact
import StateCheck.Proofs.Coverage.Attribution
import StateCheck.Proofs.Suite.Outcome
import StateCheck.Proofs.Mock.Pattern
import StateCheck.Proofs.Suite.Stopping
import StateCheck.Proofs.Document.Values
import StateCheck.Proofs.Suite.Expectations
import StateCheck.Proofs.Machine.References
import StateCheck.Proofs.Path.Below
import StateCheck.Proofs.Path.Text
import StateCheck.Proofs.Intrinsic.Format
import StateCheck.Proofs.Intrinsic.Printing
import StateCheck.Proofs.Intrinsic.Sum
import StateCheck.Proofs.Number.Order
import StateCheck.Proofs.Run.Attempts
import StateCheck.Proofs.Condition.Glob
import StateCheck.Proofs.Condition.Logic
import StateCheck.Proofs.Condition.Relation
import StateCheck.Proofs.Mock.Calls
import StateCheck.Proofs.Mock.Overrides
import StateCheck.Proofs.Mock.Conditional
import StateCheck.Proofs.Run.Rules
import StateCheck.Proofs.Suite.Matching
import StateCheck.Proofs.Mock.Equality
import StateCheck.Proofs.Suite.Checks
import StateCheck.Proofs.Suite.Paths
import StateCheck.Proofs.Template.Rendering
import StateCheck.Proofs.Intrinsic.Range
import StateCheck.Proofs.Coverage.Accounting
import StateCheck.Proofs.Intrinsic.Integer
import StateCheck.Proofs.Number.Precision
import StateCheck.Proofs.Machine.Languages
import StateCheck.Proofs.Report.Tap
import StateCheck.Proofs.Report.Markup
import StateCheck.Proofs.Report.Junit
