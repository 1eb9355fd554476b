import StateCheck.Run.Process
/-!
Retrying and catching the faults of a state.

After a catchable fault the first retrier that covers its error decides: while it has attempts left
the state is tried again. Otherwise the first catcher that covers the error takes over, and without
one the fault stands. Attempts count against the ceiling of steps; they are counted in 32 bits, and
the count wraps around.
-/
namespace StateCheck
set_option autoImplicit false

structure Policy where
  state : String
  scope : String
  raw : Json
  catchers : List Catcher
  transition : Transition
  maxSteps : Nat

/-- What the interval grows by. The exponent is a signed number of 32 bits, so from `2 ^ 31` on it
is negative. -/
def Retrier.growth (r : Retrier) (exponent : Nat) : Binary64 :=
  if exponent < pow2 31 then r.backoffRate.pow exponent
  else Binary64.ofNat 1 / r.backoffRate.pow (pow2 32 - exponent)

/-- The delay before a retry, counted from one: the interval grown by the backoff rate, with an
upper bound. -/
def Retrier.delay (r : Retrier) (attempt : Nat) : Binary64 :=
  let delay := r.intervalSeconds * r.growth (attempt - 1)
  match r.maxDelaySeconds with
  | none => delay
  | some bound => delay.minimum bound

/-- A retrier with the number of retries it has granted. -/
abbrev Usage := List (Retrier × Nat)

/-- The retries that are left. -/
def Usage.left : Usage → Nat
  | [] => 0
  | (r, used) :: rest => (r.maxAttempts - used) + left rest

/-- The retry that is due for an error: the first retrier that covers it, if it has attempts left,
with the number of this retry and the usage after it. -/
def Usage.due? (error : String) : Usage → Option (Retrier × Nat × Usage)
  | [] => none
  | (r, used) :: rest =>
    if errorMatches r.errorEquals error then
      if used < r.maxAttempts then some (r, used + 1, (r, used + 1) :: rest) else none
    else (due? error rest).map fun (found, attempt, usage) => (found, attempt, (r, used) :: usage)

theorem Usage.left_of_due {error : String} {usage after : Usage} {r : Retrier} {number : Nat}
    (h : usage.due? error = some (r, number, after)) : after.left < usage.left := by
  induction usage generalizing after with
  | nil => cases h
  | cons entry rest ih =>
    obtain ⟨first, used⟩ := entry
    rw [due?] at h
    split at h
    · split at h
      · cases h
        simp only [left]
        omega
      · cases h
    · obtain ⟨⟨_, _, after'⟩, hdue, h⟩ := Option.map_eq_some_iff.mp h
      cases h
      exact Nat.add_lt_add_left (ih hdue) _

namespace Policy

def errorOutput (fault : Fault) : Json :=
  .object [("Error", .str fault.error), ("Cause", .str (fault.cause.getD ""))]

/-- What becomes of a fault that is not retried. -/
def handle (p : Policy) (fault : Fault) : Process Step :=
  match p.catchers.find? (fun c => errorMatches c.errorEquals fault.error) with
  | none => .rethrow fault
  | some c => do
    let document ← .eval (c.resultPath.mergeResult p.raw (errorOutput fault))
    return .next c.next document

def retryRecord (p : Policy) (fault : Fault) (r : Retrier) (attempt : Nat) : RetryRecord :=
  { state := p.state, scope := p.scope, error := fault.error, attempt
    delaySeconds := r.delay attempt }

/-- Runs attempts until one decides; `retryCount` were retried before. -/
def run (p : Policy) (attempt : Nat → Process Json) (retryCount : Nat) (usage : Usage) :
    Process Step := fun s =>
  let a := attempt retryCount s
  match a.result with
  | .ok output => ⟨.ok (.along p.transition output), a.log, a.session⟩
  | .error fault =>
    if !fault.catchable then ⟨.error fault, a.log, a.session⟩
    else match hdue : usage.due? fault.error with
      | none => (p.handle fault a.session).after a.log
      | some (r, number, usage) =>
        if p.maxSteps ≤ retryCount + 1 then
          (Process.fail (.tooManyRetries p.state p.maxSteps) a.session).after a.log
        else
          (run p attempt ((retryCount + 1) % pow2 32) usage a.session).after
            (a.log ++ [.retry (p.retryRecord fault r number)])
termination_by usage.left
decreasing_by exact Usage.left_of_due hdue

def apply (p : Policy) (retriers : List Retrier) (attempt : Nat → Process Json) : Process Step :=
  p.run attempt 0 (retriers.map fun r => (r, 0))

end Policy
end StateCheck
