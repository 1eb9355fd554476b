import StateCheck.Mock.Engine
/-!
Counting calls.

A call adds one to the count of its state and leaves the counts of all others.
-/
namespace StateCheck
set_option autoImplicit false

namespace CallCounts

theorem count_cons (state other : String) (n : Nat) (calls : CallCounts) :
    count ((other, n) :: calls) state = if state = other then n else count calls state := by
  rw [count, List.lookup_cons]
  by_cases h : state = other
  · rw [if_pos h, h, beq_self_eq_true]
    rfl
  · have hne : (state == other) = false := by simpa using h
    rw [if_neg h, hne]
    rfl

theorem count_bump_self (calls : CallCounts) (state : String) :
    count (bump state calls) state = count calls state + 1 := by
  induction calls with
  | nil =>
    rw [bump, count_cons, if_pos rfl]
    rfl
  | cons entry rest ih =>
    obtain ⟨other, n⟩ := entry
    by_cases h : other = state
    · rw [bump, if_pos h, count_cons, count_cons, if_pos h.symm, if_pos h.symm]
    · have hne : state ≠ other := fun e => h e.symm
      rw [bump, if_neg h, count_cons, count_cons, if_neg hne, if_neg hne, ih]

theorem count_bump_of_ne {state other : String} (h : other ≠ state) (calls : CallCounts) :
    count (bump state calls) other = count calls other := by
  induction calls with
  | nil =>
    rw [bump, count_cons, if_neg h]
  | cons entry rest ih =>
    obtain ⟨own, n⟩ := entry
    by_cases hown : own = state
    · rw [bump, if_pos hown, count_cons, count_cons]
      have hne : other ≠ own := fun e => h (e.trans hown)
      rw [if_neg hne, if_neg hne]
    · rw [bump, if_neg hown, count_cons, count_cons, ih]

end CallCounts

namespace MockEngine

theorem callCount_resolve_self (e : MockEngine) (state : String) (input : Json) :
    (e.resolve state input).2.callCount state = e.callCount state + 1 :=
  CallCounts.count_bump_self e.calls state

theorem callCount_resolve_of_ne {state other : String} (h : other ≠ state) (e : MockEngine)
    (input : Json) : (e.resolve state input).2.callCount other = e.callCount other :=
  CallCounts.count_bump_of_ne h e.calls

end MockEngine
end StateCheck
