import Mathlib.Data.List.Forall2
import StateCheck.Machine.Basic
import StateCheck.Proofs.Text.Blank
import StateCheck.Suite.Verdict
/-!
The verdict on a case as a list of checks.

What a case asks of a trace is a list of checks, in the order of its document (`TestCase.checks`),
and each of them holds or does not, whatever the others do (`Check.Holds`). The verdict has one
entry for each check that does not hold, in this order, and no other
(`TestCase.checkCase_reports`).
-/
namespace StateCheck
set_option autoImplicit false

/-! ## Checks -/

/-- One thing that a case asks of a trace. -/
inductive Check where
  /-- The error that the execution ends with, or that there is none. -/
  | error (expected : Option ExpectedError)
  | output (expected : Json)
  | path (expected : List String)
  /-- That the state is executed. -/
  | visited (state : String)
  /-- The input of the first visit of the state. -/
  | input (state : String) (expected : Json)
  /-- The output of the first visit of the state. -/
  | result (state : String) (expected : Json)
  /-- That the container is executed. -/
  | executed (kind : ContainerKind) (state : String)
  /-- How many scopes the first execution of the container ran. -/
  | count (kind : ContainerKind) (state : String) (expected : Nat)
  /-- The path of each scope of the first execution of the container. -/
  | paths (kind : ContainerKind) (state : String) (expected : List (List String))

/-- That a state is executed, and then its input and its output as far as they are given. -/
def StateExpectation.checks (e : StateExpectation) : List Check :=
  .visited e.state :: (e.input.toList.map (.input e.state) ++ e.output.toList.map (.result e.state))

/-- That a container is executed, and then its count and its paths as far as they are given. -/
def ScopesExpectation.checks (kind : ContainerKind) (e : ScopesExpectation) : List Check :=
  .executed kind e.state ::
    (e.count.toList.map (.count kind e.state) ++ e.paths.toList.map (.paths kind e.state))

/-- What a case asks: about the error, the output, the path, the states, the Map states and the
Parallel states, in this order. -/
def TestCase.checks (case : TestCase) : List Check :=
  .error case.expectedError :: case.expectedOutput.toList.map .output ++
    case.expectedPath.toList.map .path ++
    case.stateExpectations.flatMap StateExpectation.checks ++
    case.mapExpectations.flatMap (ScopesExpectation.checks .map) ++
    case.parallelExpectations.flatMap (ScopesExpectation.checks .parallel)

/-- The paths of the scopes in the first execution of a container. -/
def ExecutionTrace.firstPaths? (t : ExecutionTrace) (kind : ContainerKind) (state : String) :
    Option (List (List String)) :=
  match kind with
  | .map => (t.mapExecutions.find? (·.state == state)).map (·.iterationPaths)
  | .parallel => (t.parallelExecutions.find? (·.state == state)).map (·.branchPaths)

namespace Check

variable (t : ExecutionTrace) (matching : MatchingSettings)

/-- The trace is as the check asks. A first visit or execution that there is not has nothing wrong
with it: that it lacks is another check. -/
def Holds : Check → Prop
  | error none => t.error = none
  | error (some e) => ∃ a ∈ t.error, a.error = e.errorType ∧
      ∀ part ∈ e.cause?, ∃ cause ∈ a.cause, part.toList <:+: cause.toList
  | output v => valuesMatch matching.outputs v t.output = true
  | path names => pathMatches matching.paths names t.executionPath = true
  | visited state => ∃ visit ∈ t.stateExecutions, visit.state = state
  | input state v => ∀ visit ∈ t.firstVisit? state,
      valuesMatch matching.outputs v visit.input = true
  | result state v => ∀ visit ∈ t.firstVisit? state,
      valuesMatch matching.outputs v (visit.output.getD .null) = true
  | executed kind state => (t.firstPaths? kind state).isSome = true
  | count kind state n => ∀ paths ∈ t.firstPaths? kind state, paths.length = n
  | paths kind state expected => ∀ paths ∈ t.firstPaths? kind state,
      List.Forall₂ (fun e a => pathMatches matching.paths e a = true) expected paths

instance decidableHolds : (c : Check) → Decidable (c.Holds t matching)
  | error none => inferInstanceAs (Decidable (t.error = none))
  | error (some e) => inferInstanceAs (Decidable (∃ a ∈ t.error, a.error = e.errorType ∧
      ∀ part ∈ e.cause?, ∃ cause ∈ a.cause, part.toList <:+: cause.toList))
  | output v => inferInstanceAs (Decidable (valuesMatch matching.outputs v t.output = true))
  | path names =>
    inferInstanceAs (Decidable (pathMatches matching.paths names t.executionPath = true))
  | visited state => inferInstanceAs (Decidable (∃ visit ∈ t.stateExecutions, visit.state = state))
  | input state v => inferInstanceAs (Decidable (∀ visit ∈ t.firstVisit? state,
      valuesMatch matching.outputs v visit.input = true))
  | result state v => inferInstanceAs (Decidable (∀ visit ∈ t.firstVisit? state,
      valuesMatch matching.outputs v (visit.output.getD .null) = true))
  | executed kind state => inferInstanceAs (Decidable ((t.firstPaths? kind state).isSome = true))
  | count kind state n => inferInstanceAs (Decidable (∀ paths ∈ t.firstPaths? kind state,
      paths.length = n))
  | paths kind state expected => inferInstanceAs (Decidable (∀ paths ∈ t.firstPaths? kind state,
      List.Forall₂ (fun e a => pathMatches matching.paths e a = true) expected paths))

end Check

/-! ## Entries -/

def ContainerKind.assertion : ContainerKind → AssertionKind
  | map => .map
  | parallel => .parallel

def ContainerKind.scopeNoun : ContainerKind → String
  | map => "iteration"
  | parallel => "branch"

/-- The entry tells of the check: what it asked, and what the trace has instead. -/
inductive Check.Reports (t : ExecutionTrace) : Check → AssertionFailure → Prop
  | unexpected {a : TraceError} : t.error = some a →
      Reports t (.error none) (Verdict.unexpectedError a)
  | missing {e : ExpectedError} : t.error = none → Reports t (.error (some e))
      { kind := .error
        message := s!"expected error '{e.errorType}' but the execution succeeded" }
  | name {e : ExpectedError} {a : TraceError} : t.error = some a → a.error ≠ e.errorType →
      Reports t (.error (some e)) (.compared .error
        s!"expected error '{e.errorType}' but got '{a.error}'" (.str e.errorType) (.str a.error))
  | cause {e : ExpectedError} {a : TraceError} {part : String} : t.error = some a →
      a.error = e.errorType → e.cause? = some part → Reports t (.error (some e)) (.compared .error
        s!"error cause does not contain '{part}'" (.str part) ((a.cause.map .str).getD .null))
  | output {v : Json} : Reports t (.output v) (.compared .output "output did not match" v t.output)
  | path {names : List String} : Reports t (.path names) (.compared .path
      "execution path did not match" (Json.ofStrings names) (Json.ofStrings t.executionPath))
  | visited {state : String} : Reports t (.visited state)
      { kind := .state, message := s!"state '{state}' was never executed" }
  | input {state : String} {v : Json} {visit : StateExecution} : t.firstVisit? state = some visit →
      Reports t (.input state v)
        (.compared .state s!"input of state '{state}' did not match" v visit.input)
  | result {state : String} {v : Json} {visit : StateExecution} :
      t.firstVisit? state = some visit → Reports t (.result state v)
        (.compared .state s!"output of state '{state}' did not match" v (visit.output.getD .null))
  | executed {kind : ContainerKind} {state : String} : Reports t (.executed kind state)
      { kind := kind.assertion, message := s!"{kind.word} state '{state}' was never executed" }
  | count {kind : ContainerKind} {state : String} {n : Nat} {paths : List (List String)} :
      t.firstPaths? kind state = some paths → Reports t (.count kind state n)
        (.compared kind.assertion
          s!"'{state}' ran {paths.length} {kind.scopeNoun}(s), expected {n}" (Json.ofNat n)
          (Json.ofNat paths.length))
  | paths {kind : ContainerKind} {state : String} {expected paths : List (List String)} :
      t.firstPaths? kind state = some paths → Reports t (.paths kind state expected)
        (.compared kind.assertion s!"{kind.scopeNoun} paths of '{state}' did not match"
          (Json.ofPaths expected) (Json.ofPaths paths))

/-! ## One check after the other -/

/-- The failures are one entry for each of the checks that does not hold, in order. -/
def Reported (t : ExecutionTrace) (matching : MatchingSettings) (checks : List Check)
    (failures : List AssertionFailure) : Prop :=
  List.Forall₂ (Check.Reports t) (checks.filter (¬ ·.Holds t matching)) failures

namespace Reported

variable {t : ExecutionTrace} {matching : MatchingSettings} {checks more : List Check}
  {failures others : List AssertionFailure} {c : Check} {f : AssertionFailure}

theorem append (h : Reported t matching checks failures) (h' : Reported t matching more others) :
    Reported t matching (checks ++ more) (failures ++ others) := by
  rw [Reported, List.filter_append]
  exact List.rel_append h h'

theorem cons (h : Reported t matching [c] failures) (h' : Reported t matching more others) :
    Reported t matching (c :: more) (failures ++ others) := h.append h'

theorem flatMap {α : Type} {items : List α} {ask : α → List Check}
    {check : α → List AssertionFailure}
    (h : ∀ item ∈ items, Reported t matching (ask item) (check item)) :
    Reported t matching (items.flatMap ask) (items.flatMap check) := by
  induction items with
  | nil => exact .nil
  | cons item rest ih =>
    obtain ⟨hitem, hrest⟩ := List.forall_mem_cons.mp h
    exact hitem.append (ih hrest)

theorem of_forall (h : ∀ c ∈ checks, c.Holds t matching) : Reported t matching checks [] := by
  have hnone : checks.filter (¬ ·.Holds t matching) = [] := by simpa using h
  rw [Reported, hnone]
  exact .nil

theorem of_holds (h : c.Holds t matching) : Reported t matching [c] [] :=
  of_forall (List.forall_mem_singleton.mpr h)

theorem of_fails (h : ¬c.Holds t matching) (hf : c.Reports t f) : Reported t matching [c] [f] := by
  rw [Reported, List.filter_cons_of_pos (by simpa using h)]
  exact .cons hf .nil

theorem nil_iff (h : Reported t matching checks failures) :
    failures = [] ↔ ∀ c ∈ checks, c.Holds t matching := by
  have hlength := h.length_eq
  rw [← List.length_eq_zero_iff, ← hlength, List.length_eq_zero_iff, List.filter_eq_nil_iff]
  simp

theorem of_ite {p : Prop} [Decidable p] (hholds : c.Holds t matching ↔ p)
    (hreports : ¬p → c.Reports t f) : Reported t matching [c] (if p then [] else [f]) := by
  split
  · next hp => exact of_holds (hholds.mpr hp)
  · next hp => exact of_fails (fun h => hp (hholds.mp h)) (hreports hp)

end Reported

/-! ## The checks of a case -/

theorem Json.ofOption_eq (v : Option Json) : ofOption v = v.getD .null := by
  cases v <;> rfl

theorem pathListsMatch_iff {mode : MatchMode} {expected actual : List (List String)} :
    pathListsMatch mode expected actual = true ↔
      List.Forall₂ (fun e a => pathMatches mode e a = true) expected actual := by
  rw [pathListsMatch, Bool.and_eq_true, beq_iff_eq, List.all_eq_true, List.forall₂_iff_zip]
  simp

namespace Verdict

variable {t : ExecutionTrace} {matching : MatchingSettings}

theorem checkError_reported (expected : Option ExpectedError) :
    Reported t matching [.error expected] (checkError expected t.error) := by
  cases ht : t.error with
  | none =>
    cases expected with
    | none => exact .of_holds ht
    | some e =>
      refine .of_fails ?_ (.missing ht)
      rintro ⟨a, ha, -⟩
      cases ht.symm.trans ha
  | some a =>
    have hheld : ∀ b ∈ t.error, b = a := fun b hb => Option.some.inj (hb.symm.trans ht)
    cases expected with
    | none =>
      refine .of_fails (fun h => ?_) (.unexpected ht)
      cases ht.symm.trans h
    | some e =>
      rw [checkError, errorFailures]
      by_cases hname : e.errorType = a.error
      · rw [if_neg (not_not.mpr hname)]
        cases hcause : e.cause? with
        | none =>
          refine .of_holds ⟨a, ht, hname.symm, ?_⟩
          rw [hcause]
          exact nofun
        | some part =>
          have hholds : (Check.error (some e)).Holds t matching ↔
              causeContains part a.cause = true := by
            simp only [Check.Holds, hcause, ht, causeContains, Option.any_eq_true,
              Text.contains_iff]
            simp [hname]
          dsimp only
          rw [Json.ofOption_eq]
          exact .of_ite hholds fun _ => .cause ht hname.symm hcause
      · rw [if_pos hname]
        refine .of_fails ?_ (.name ht (Ne.symm hname))
        rintro ⟨b, hb, hbname, -⟩
        rw [hheld b hb] at hbname
        exact hname hbname.symm

theorem checkValue_reported {kind : AssertionKind} {message : String} {expected : Option Json}
    {actual : Json} {ask : Json → Check}
    (hholds : ∀ v, (ask v).Holds t matching ↔ valuesMatch matching.outputs v actual = true)
    (hreports : ∀ v, (ask v).Reports t (.compared kind message v actual)) :
    Reported t matching (expected.toList.map ask)
      (checkValue kind message matching.outputs expected actual) := by
  cases expected with
  | none => exact .nil
  | some v => exact .of_ite (hholds v) fun _ => hreports v

theorem checkPath_reported (expected : Option (List String)) :
    Reported t matching (expected.toList.map .path)
      (checkPath matching.paths expected t.executionPath) := by
  cases expected with
  | none => exact .nil
  | some names => exact .of_ite Iff.rfl fun _ => .path

theorem checkState_reported (e : StateExpectation) :
    Reported t matching e.checks (checkState matching.outputs t e) := by
  rw [checkState, StateExpectation.checks]
  cases hvisit : t.firstVisit? e.state with
  | none =>
    have hunvisited : ¬(Check.visited e.state).Holds t matching := by
      rintro ⟨visit, hvisit', hname⟩
      exact List.find?_eq_none.mp hvisit visit hvisit' (by simpa using hname)
    refine (Reported.of_fails hunvisited .visited).cons (.of_forall ?_)
    simp only [List.mem_append, List.mem_map]
    rintro _ (⟨v, -, rfl⟩ | ⟨v, -, rfl⟩) <;> simp [Check.Holds, hvisit]
  | some visit =>
    have hvisited : (Check.visited e.state).Holds t matching :=
      ⟨visit, List.mem_of_find?_eq_some hvisit, by simpa using List.find?_some hvisit⟩
    have heach : ∀ p : StateExecution → Prop, (∀ v ∈ t.firstVisit? e.state, p v) ↔ p visit := by
      simp [hvisit]
    refine (Reported.of_holds hvisited).cons (.append ?_ ?_)
    · exact checkValue_reported (fun v => heach _) fun v => .input hvisit
    · refine checkValue_reported (fun v => ?_) fun v => ?_
      · rw [Json.ofOption_eq]
        exact heach _
      · rw [Json.ofOption_eq]
        exact .result hvisit

theorem checkContainer_reported (kind : ContainerKind) (e : ScopesExpectation) :
    Reported t matching (e.checks kind) (checkContainer kind.assertion kind.scopeNoun matching.paths
      (t.firstPaths? kind e.state) e) := by
  unfold checkContainer ScopesExpectation.checks
  cases hfirst : t.firstPaths? kind e.state with
  | none =>
    have hunexecuted : ¬(Check.executed kind e.state).Holds t matching := by
      simp [Check.Holds, hfirst]
    have hword : kind.assertion.word = kind.word := by cases kind <;> rfl
    dsimp only
    rw [hword]
    refine (Reported.of_fails hunexecuted .executed).cons (.of_forall ?_)
    simp only [List.mem_append, List.mem_map]
    rintro _ (⟨v, -, rfl⟩ | ⟨v, -, rfl⟩) <;> simp [Check.Holds, hfirst]
  | some actual =>
    have hexecuted : (Check.executed kind e.state).Holds t matching := by
      simp [Check.Holds, hfirst]
    have heach : ∀ p : List (List String) → Prop,
        (∀ paths ∈ t.firstPaths? kind e.state, p paths) ↔ p actual := by simp [hfirst]
    refine (Reported.of_holds hexecuted).cons (.append ?_ ?_)
    · cases e.count with
      | none => exact .nil
      | some n => exact .of_ite ((heach _).trans eq_comm) fun _ => .count hfirst
    · cases e.paths with
      | none => exact .nil
      | some expected =>
        exact .of_ite ((heach _).trans pathListsMatch_iff.symm) fun _ => .paths hfirst

theorem checkMap_reported (e : ScopesExpectation) :
    Reported t matching (e.checks .map) (checkMap matching.paths t e) := by
  rw [checkMap, ExecutionTrace.mapExecutionsOf, List.head?_filter]
  exact checkContainer_reported .map e

theorem checkParallel_reported (e : ScopesExpectation) :
    Reported t matching (e.checks .parallel) (checkParallel matching.paths t e) := by
  rw [checkParallel, ExecutionTrace.parallelExecutionsOf, List.head?_filter]
  exact checkContainer_reported .parallel e

end Verdict

open Verdict

/-- The verdict on a case lists one entry for each check of the case that does not hold, in the
order of the checks, whatever the other checks find; it is empty exactly when all of them hold. -/
theorem TestCase.checkCase_reports (case : TestCase) (t : ExecutionTrace)
    (matching : MatchingSettings) :
    List.Forall₂ (Check.Reports t) (case.checks.filter (¬ ·.Holds t matching))
        (checkCase case t matching) ∧
      (checkCase case t matching = [] ↔ ∀ c ∈ case.checks, c.Holds t matching) := by
  have houtput : Reported t matching (case.expectedOutput.toList.map .output) _ :=
    checkValue_reported (fun _ => Iff.rfl) fun _ => .output
  have hstates : Reported t matching (case.stateExpectations.flatMap StateExpectation.checks) _ :=
    .flatMap fun e _ => checkState_reported e
  have hmaps : Reported t matching
      (case.mapExpectations.flatMap (ScopesExpectation.checks .map)) _ :=
    .flatMap fun e _ => checkMap_reported e
  have hparallels : Reported t matching
      (case.parallelExpectations.flatMap (ScopesExpectation.checks .parallel)) _ :=
    .flatMap fun e _ => checkParallel_reported e
  have hreported : Reported t matching case.checks (checkCase case t matching) :=
    (checkError_reported case.expectedError).append houtput
      |>.append (checkPath_reported case.expectedPath) |>.append hstates |>.append hmaps
      |>.append hparallels
  exact ⟨hreported, hreported.nil_iff⟩

end StateCheck
