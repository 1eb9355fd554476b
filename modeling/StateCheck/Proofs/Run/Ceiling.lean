import StateCheck.Proofs.Run.Simulation
import StateCheck.Proofs.Run.Walk
/-!
Raising the ceiling of steps.

A fault at the ceiling is fatal, so that it ends the execution from whatever depth it comes up at. A
run that ends without one goes on in the same way below a higher ceiling
(`Machine.execute_raised`).
-/
namespace StateCheck
set_option autoImplicit false

/-- A run below one ceiling of steps and the same run below one that is no lower: the first may be
cut short by the fault of its ceiling. -/
def Simulation.raised {low high : Nat} (h : low ≤ high) : Simulation where
  Beside s s' := s' = s
  Traced := True
  Cut fault := fault.catchable = false ∧ fault.error = ErrorName.executionLimitExceeded
  low := low
  high := high
  Rendered _ := True
  Asked _ := True
  low_le_high := h
  cut_of_ceiling _ _ hfatal herror := ⟨hfatal, herror⟩
  fatal_of_cut _ hcut := hcut.1
  draw _ _ _ := by
    rintro s _ rfl
    exact .same rfl rfl fun _ => rfl
  call _ _ _ := by
    rintro s _ rfl
    exact .same rfl rfl fun _ => rfl

theorem ScopeRun.errorName?_of_error {r : ScopeRun} {located : Located}
    (h : r.output = .error located) : r.trace.errorName? = some located.fault.error := by
  obtain ⟨fault, state⟩ := located
  have herror := (r.trace_of_error h).2.2
  rw [ExecutionTrace.errorName?, herror]
  rfl

/-- A run below a ceiling is the run below any higher one, unless its own ceiling cuts it short. -/
theorem Machine.execution_raised (m : Machine) (input : Json) (engine : MockEngine)
    (options : ExecutionOptions) {low high : Nat} (h : low ≤ high) :
    let r := m.execution input engine { options with maxSteps := low }
    let r' := m.execution input engine { options with maxSteps := high }
    r' = r ∨ r.path <+: r'.path ∧
      ∃ located, r.output = .error located ∧
        located.fault.error = ErrorName.executionLimitExceeded := by
  intro r r'
  have hscopes : (Simulation.raised h).Scopes (m.run low) (m.run high) :=
    (Simulation.raised h).scopes_run m fun st _ => ⟨fun _ _ => trivial, fun _ => trivial⟩
  have hruns : (Simulation.raised h).ScopeRuns r r' := hscopes _ _ _ _ _ _ (fun _ => rfl) rfl
  cases hruns with
  | cut houtput hcut hpath => exact .inr ⟨hpath, _, houtput, hcut.2⟩
  | same houtput hpath hsession hlog =>
    have hlog := hlog trivial
    have hsession : r'.session = r.session := hsession
    refine .inl ?_
    calc r' = ⟨r'.output, r'.path, r'.log, r'.session⟩ := rfl
      _ = ⟨r.output, r.path, r.log, r.session⟩ := by rw [houtput, hpath, hlog, hsession]
      _ = r := rfl

/-- An execution that does not end at its ceiling of steps is the same, with its trace and the calls
it makes, below every higher ceiling; and one that does goes a part of the path of the other. -/
theorem Machine.execute_raised (m : Machine) (input : Json) (engine : MockEngine)
    (options : ExecutionOptions) {low high : Nat} (h : low ≤ high) :
    let below := m.execute input engine { options with maxSteps := low }
    let above := m.execute input engine { options with maxSteps := high }
    (below.1.errorName? ≠ some ErrorName.executionLimitExceeded → above = below) ∧
      below.1.executionPath <+: above.1.executionPath := by
  intro below above
  rcases m.execution_raised input engine options h with hsame | ⟨hpath, located, houtput, hname⟩
  · have habove : above = below := by
      show (ScopeRun.trace _, _) = (ScopeRun.trace _, _)
      rw [hsame]
    refine ⟨fun _ => habove, ?_⟩
    rw [habove]
  · refine ⟨fun hother => ?_, ?_⟩
    · have herror : below.1.errorName? = some located.fault.error :=
        ScopeRun.errorName?_of_error houtput
      rw [hname] at herror
      exact (hother herror).elim
    · show (ScopeRun.trace _).executionPath <+: (ScopeRun.trace _).executionPath
      rw [ScopeRun.trace_executionPath, ScopeRun.trace_executionPath]
      exact hpath

/-- Two steps are enough for this machine, so that a thousand change nothing. One step is not: the
iteration comes to the ceiling when its task is caught. -/
theorem Machine.execute_raised_caught :
    ∃ m, Machine.ofJson caughtInside = .ok m ∧
      let run (maxSteps : Nat) := m.execute (.arr [.null, .null]) { config := {} }
        { maxSteps, executionName := some "run" }
      (run 2).1.executionPath = ["Each", "Done"] ∧ (run 2).1.errorName? = none ∧
        run 1000 = run 2 ∧
        (run 1).1.executionPath = ["Each"] ∧
        (run 1).1.errorName? = some "ExecutionLimitExceeded" ∧
        (run 1).1.executionPath <+: (run 1000).1.executionPath := by
  let options : ExecutionOptions := { executionName := some "run" }
  let run (maxSteps : Nat) :=
    (catching.execute (.arr [.null, .null]) { config := {} } { options with maxSteps }).1
  obtain ⟨hpath, hname, hpath', hname'⟩ : (run 2).executionPath = ["Each", "Done"] ∧
      (run 2).errorName? = none ∧ (run 1).executionPath = ["Each"] ∧
      (run 1).errorName? = some "ExecutionLimitExceeded" := by
    decide +kernel
  have htwo := Machine.execute_raised catching (.arr [.null, .null]) { config := {} } options
    (show 2 ≤ 1000 by decide)
  have hone := Machine.execute_raised catching (.arr [.null, .null]) { config := {} } options
    (show 1 ≤ 1000 by decide)
  refine ⟨catching, ofJson_caughtInside, hpath, hname, htwo.1 ?_, hpath', hname', hone.2⟩
  intro hceiling
  rw [hname] at hceiling
  cases hceiling

end StateCheck
