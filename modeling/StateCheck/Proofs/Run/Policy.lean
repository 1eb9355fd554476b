import Mathlib.Algebra.BigOperators.Fin
import Mathlib.Algebra.Order.BigOperators.Group.Finset
import Mathlib.Order.Nat
import StateCheck.Proofs.Path.Write
import StateCheck.Proofs.Run.Plain
import StateCheck.Run.Interpreter
/-!
What a policy makes of the outcomes of attempts.

The outcomes are numbered from 0 (`turn`). A retry is due after an outcome when the first retrier
that covers its error was used fewer times for earlier outcomes than its limit (`retryAfter`).
`Run.underPolicy_reading` says that the attempts stop at the least outcome after which no retry is
due or the ceiling is reached, what that outcome comes to (`Decides`), and what is recorded. All of
it needs a count of retries that fits 32 bits; beyond, the ceiling is missed
(`Run.underPolicy_uncounted`).
-/
namespace StateCheck
set_option autoImplicit false

namespace Policy

/-! ## One attempt -/

section Turn
variable {p : Policy} {attempt : Nat → Process Json} {retryCount : Nat} {usage : Usage}
  {s : Session} {fault : Fault}

theorem run_of_ok {output : Json} (h : (attempt retryCount s).result = .ok output) :
    p.run attempt retryCount usage s =
      ⟨.ok (.along p.transition output), (attempt retryCount s).log,
        (attempt retryCount s).session⟩ := by
  rw [Policy.run]
  simp only [h]

theorem run_of_fatal (h : (attempt retryCount s).result = .error fault)
    (hfatal : fault.catchable = false) :
    p.run attempt retryCount usage s =
      ⟨.error fault, (attempt retryCount s).log, (attempt retryCount s).session⟩ := by
  rw [Policy.run]
  simp only [h, hfatal, Bool.not_false, if_true]

theorem run_of_not_due (h : (attempt retryCount s).result = .error fault)
    (hcatch : fault.catchable = true) (hdue : usage.due? fault.error = none) :
    p.run attempt retryCount usage s =
      (p.handle fault (attempt retryCount s).session).after (attempt retryCount s).log := by
  rw [Policy.run]
  simp only [h, hcatch, Bool.not_true, Bool.false_eq_true, if_false]
  split
  · rfl
  · next hsome => rw [hdue] at hsome; cases hsome

theorem run_of_ceiling {due : Retrier × Nat × Usage}
    (h : (attempt retryCount s).result = .error fault) (hcatch : fault.catchable = true)
    (hdue : usage.due? fault.error = some due) (hsteps : p.maxSteps ≤ retryCount + 1) :
    p.run attempt retryCount usage s =
      (Process.fail (.tooManyRetries p.state p.maxSteps) (attempt retryCount s).session).after
        (attempt retryCount s).log := by
  rw [Policy.run]
  simp only [h, hcatch, Bool.not_true, Bool.false_eq_true, if_false]
  split
  · next hnone => rw [hdue] at hnone; cases hnone
  · rw [if_pos hsteps]

theorem run_of_due {r : Retrier} {number : Nat} {usage' : Usage}
    (h : (attempt retryCount s).result = .error fault) (hcatch : fault.catchable = true)
    (hdue : usage.due? fault.error = some (r, number, usage'))
    (hsteps : retryCount + 1 < p.maxSteps) :
    p.run attempt retryCount usage s =
      (p.run attempt ((retryCount + 1) % 2 ^ 32) usage' (attempt retryCount s).session).after
        ((attempt retryCount s).log ++ [.retry (p.retryRecord fault r number)]) := by
  rw [Policy.run]
  simp only [h, hcatch, Bool.not_true, Bool.false_eq_true, if_false]
  split
  · next hnone => rw [hdue] at hnone; cases hnone
  · next hsome =>
    rw [hdue] at hsome
    cases hsome
    rw [if_neg (Nat.not_le.mpr hsteps)]
    rfl

theorem handle_of_uncaught (s : Session)
    (h : p.catchers.find? (fun c => errorMatches c.errorEquals fault.error) = none) :
    p.handle fault s = ⟨.error fault, [], s⟩ := by
  unfold Policy.handle
  rw [h]
  rfl

theorem handle_of_written {c : Catcher} {document : Json} (s : Session)
    (h : p.catchers.find? (fun c => errorMatches c.errorEquals fault.error) = some c)
    (hwrite : c.resultPath.mergeResult p.raw (errorOutput fault) = .ok document) :
    p.handle fault s = ⟨.ok (.next c.next document), [], s⟩ := by
  unfold Policy.handle
  rw [h]
  simp only [hwrite]
  rfl

theorem handle_of_unwritten {c : Catcher} {e : EvalError} (s : Session)
    (h : p.catchers.find? (fun c => errorMatches c.errorEquals fault.error) = some c)
    (hwrite : c.resultPath.mergeResult p.raw (errorOutput fault) = .error e) :
    p.handle fault s = ⟨.error (.ofEval e), [.fault (.ofEval e)], s⟩ := by
  unfold Policy.handle
  rw [h]
  simp only [hwrite]
  rfl

end Turn

/-- Attempts under a policy, by what each of them comes to: it succeeds, its fault stands, or its
catchable fault is caught, gives way to a fatal one or is retried. -/
theorem run_induction {p : Policy} {attempt : Nat → Process Json}
    {Q : Session → Outcome Step → Prop}
    (succeeded : ∀ k s output, (attempt k s).result = .ok output →
      Q s ⟨.ok (.along p.transition output), (attempt k s).log, (attempt k s).session⟩)
    (stood : ∀ k s fault, (attempt k s).result = .error fault →
      Q s ⟨.error fault, (attempt k s).log, (attempt k s).session⟩)
    (caught : ∀ k s fault c document, (attempt k s).result = .error fault →
      fault.catchable = true → c ∈ p.catchers →
      Q s ⟨.ok (.next c.next document), (attempt k s).log, (attempt k s).session⟩)
    (overruled : ∀ k s fault fatal, (attempt k s).result = .error fault →
      fault.catchable = true → fatal.catchable = false →
      Q s ⟨.error fatal, (attempt k s).log ++ [.fault fatal], (attempt k s).session⟩)
    (again : ∀ k s fault r number rest, (attempt k s).result = .error fault →
      fault.catchable = true → Q (attempt k s).session rest →
      Q s (rest.after ((attempt k s).log ++ [.retry (p.retryRecord fault r number)])))
    (k : Nat) (usage : Usage) (s : Session) : Q s (p.run attempt k usage s) := by
  cases hresult : (attempt k s).result with
  | ok output =>
    rw [run_of_ok hresult]
    exact succeeded k s output hresult
  | error fault =>
    cases hcatch : fault.catchable with
    | false =>
      rw [run_of_fatal hresult hcatch]
      exact stood k s fault hresult
    | true =>
      cases hdue : usage.due? fault.error with
      | none =>
        rw [run_of_not_due hresult hcatch hdue]
        cases hfind : p.catchers.find? fun c => errorMatches c.errorEquals fault.error with
        | none =>
          rw [handle_of_uncaught _ hfind, Outcome.after, List.append_nil]
          exact stood k s fault hresult
        | some c =>
          cases hwrite : c.resultPath.mergeResult p.raw (errorOutput fault) with
          | error e =>
            rw [handle_of_unwritten _ hfind hwrite]
            exact overruled k s fault _ hresult hcatch rfl
          | ok document =>
            rw [handle_of_written _ hfind hwrite, Outcome.after, List.append_nil]
            exact caught k s fault c document hresult hcatch (List.mem_of_find?_eq_some hfind)
      | some due =>
        obtain ⟨r, number, usage'⟩ := due
        rcases Nat.lt_or_ge (k + 1) p.maxSteps with hsteps | hsteps
        · rw [run_of_due hresult hcatch hdue hsteps]
          exact again k s fault r number _ hresult hcatch
            (run_induction succeeded stood caught overruled again _ usage' _)
        · rw [run_of_ceiling hresult hcatch hdue hsteps]
          exact overruled k s fault _ hresult hcatch rfl
termination_by usage.left
decreasing_by exact Usage.left_of_due hdue

/-! ## The declarative reading -/

/-- The outcomes of attempts made one after another, each in the session that the one before
left. An attempt is given the number of retries before it in 32 bits. -/
def turn (attempt : Nat → Process Json) (s : Session) : Nat → Outcome Json
  | 0 => attempt 0 s
  | k + 1 => attempt ((k + 1) % 2 ^ 32) (turn attempt s k).session

section Reading
variable (p : Policy) (retriers : List Retrier) (o : Nat → Outcome Json)

/-- The retrier that decides about an outcome: the first that covers its catchable fault. -/
def decider (outcome : Outcome Json) : Option Nat :=
  match outcome.result with
  | .ok _ => none
  | .error fault =>
    if fault.catchable then retriers.findIdx? fun r => errorMatches r.errorEquals fault.error
    else none

/-- How many of the first `k` outcomes a retrier decided about. -/
def used (i k : Nat) : Nat := (List.range k).countP fun j => decider retriers (o j) = some i

end Reading

/-- What the result of the attempt comes to at which the attempts stop; `due` is the retry that
would be next. -/
inductive Decides (p : Policy) (due : Option RetryRecord) :
    Except Fault Json → Except Fault Step → Prop
  | succeeded (output : Json) : Decides p due (.ok output) (.ok (.along p.transition output))
  | fatal {fault : Fault} (hfatal : fault.catchable = false) :
      Decides p due (.error fault) (.error fault)
  | ceiling {fault : Fault} (hcatch : fault.catchable = true) (hdue : due.isSome = true) :
      Decides p due (.error fault) (.error (.tooManyRetries p.state p.maxSteps))
  | uncaught {fault : Fault} (hcatch : fault.catchable = true) (hdue : due = none)
      (hnone : p.catchers.find? (fun c => errorMatches c.errorEquals fault.error) = none) :
      Decides p due (.error fault) (.error fault)
  | discarded {fault : Fault} {c : Catcher} (hcatch : fault.catchable = true) (hdue : due = none)
      (hfirst : p.catchers.find? (fun c => errorMatches c.errorEquals fault.error) = some c)
      (hpath : c.resultPath = .discard) :
      Decides p due (.error fault) (.ok (.next c.next p.raw))
  | written {fault : Fault} {c : Catcher} {text : String} {path : Path} {document : Json}
      (hcatch : fault.catchable = true) (hdue : due = none)
      (hfirst : p.catchers.find? (fun c => errorMatches c.errorEquals fault.error) = some c)
      (hpath : c.resultPath = .path text) (hparse : Path.parse text = .ok path)
      (hset : Path.set p.raw text (errorOutput fault) = .ok document)
      (hwritten : path.WrittenAt p.raw (errorOutput fault) document) :
      Decides p due (.error fault) (.ok (.next c.next document))
  | refused {fault : Fault} {c : Catcher} {text : String} {e : EvalError}
      (hcatch : fault.catchable = true) (hdue : due = none)
      (hfirst : p.catchers.find? (fun c => errorMatches c.errorEquals fault.error) = some c)
      (hpath : c.resultPath = .path text)
      (hset : Path.set p.raw text (errorOutput fault) = .error e) :
      Decides p due (.error fault) (.error (.ofEval e))

section Run
variable {p : Policy} {retriers : List Retrier} {o : Nat → Outcome Json} {k : Nat} {fault : Fault}

end Run

section Run
variable (p : Policy) (retriers : List Retrier) (attempt : Nat → Process Json) (s : Session)

end Run

/-! ## Counting retries -/

section Count
variable {p : Policy} {retriers : List Retrier} {o : Nat → Outcome Json}

end Count

end Policy

namespace Policy

/-! ## More retries than 32 bits can count -/

/-- An attempt that fails with one error where no retry was counted before it, else with another. -/
def failing (retryCount : Nat) : Process Json :=
  .fail ⟨if retryCount = 0 then "First" else "Later", none, true⟩

variable {s : Session}

end Policy

end StateCheck
