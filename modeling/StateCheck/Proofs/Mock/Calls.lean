import StateCheck.Proofs.Mock.Counts
/-!
Sequences of calls.

The calls of several states reach one engine in any order. What a call is answered follows from the
first rule of its state, from the number of calls of this state before it and from its input
(`MockEngine.getElem?_answers`): calls of other states leave no trace in it.
-/
namespace StateCheck
set_option autoImplicit false

structure MockCall where
  state : String
  input : Json

namespace MockCall

def countOf (state : String) (calls : List MockCall) : Nat :=
  calls.countP fun c => c.state = state

theorem countOf_cons (state : String) (c : MockCall) (calls : List MockCall) :
    countOf state (c :: calls) = (if c.state = state then 1 else 0) + countOf state calls := by
  rw [countOf, List.countP_cons, Nat.add_comm]
  simp [countOf]

end MockCall

namespace MockEngine

open MockCall

def fresh (config : MockConfig) (exhaustion : Exhaustion) : MockEngine := { config, exhaustion }

def after (e : MockEngine) : List MockCall → MockEngine
  | [] => e
  | c :: rest => (e.resolve c.state c.input).2.after rest

def answers (e : MockEngine) : List MockCall → List MockResponse
  | [] => []
  | c :: rest => (e.resolve c.state c.input).1 :: (e.resolve c.state c.input).2.answers rest

theorem callCount_resolve (e : MockEngine) (c : MockCall) (state : String) :
    (e.resolve c.state c.input).2.callCount state =
      e.callCount state + if c.state = state then 1 else 0 := by
  by_cases h : c.state = state
  · rw [← h, if_pos rfl]
    exact e.callCount_resolve_self c.state c.input
  · rw [if_neg h]
    exact callCount_resolve_of_ne (fun heq => h heq.symm) e c.input

theorem callCount_after (e : MockEngine) (calls : List MockCall) (state : String) :
    (e.after calls).callCount state = e.callCount state + countOf state calls := by
  induction calls generalizing e with
  | nil => rfl
  | cons c rest ih => rw [after, ih, callCount_resolve, countOf_cons, Nat.add_assoc]

/-- A call is answered by the first rule of its state, as the call of this state whose number is
that of those before it. -/
theorem getElem?_answers (e : MockEngine) (calls : List MockCall) (i : Nat) :
    (e.answers calls)[i]? = calls[i]?.map fun c =>
      MockRule.answer e.exhaustion c.state (e.config.ruleFor? c.state)
        (e.callCount c.state + countOf c.state (calls.take i)) c.input := by
  induction calls generalizing e i with
  | nil => rfl
  | cons c rest ih =>
    cases i with
    | zero => rfl
    | succ i =>
      rw [answers, List.getElem?_cons_succ, List.getElem?_cons_succ, ih, List.take_succ_cons]
      congr 1
      funext d
      rw [callCount_resolve, countOf_cons, Nat.add_assoc]
      rfl

end MockEngine

/-! ## Stateful rules -/

/-- What a list of responses holds for the call number `k`: one response after the other, and then
the last one again or an error. -/
inductive Scripted (exhaustion : Exhaustion) (responses : List Json) (k : Nat) : MockOutcome → Prop
  | response (h : k < responses.length) : Scripted exhaustion responses k (.value responses[k])
  | last (h : responses.length ≤ k) (hpolicy : exhaustion = .repeatLast) (hne : responses ≠ []) :
      Scripted exhaustion responses k (.value (responses.getLast hne))
  | exhausted (h : responses.length ≤ k) (hpolicy : exhaustion = .error ∨ responses = [])
      (cause : String) :
      Scripted exhaustion responses k (.failure ⟨"MockResponsesExhausted", some cause⟩)

theorem Scripted.eq_response {exhaustion : Exhaustion} {responses : List Json} {k : Nat}
    {o : MockOutcome} (hscript : Scripted exhaustion responses k o) (hlt : k < responses.length) :
    o = .value responses[k] := by
  cases hscript with
  | response => rfl
  | last h => exact absurd hlt (Nat.not_lt.mpr h)
  | exhausted h => exact absurd hlt (Nat.not_lt.mpr h)

theorem Scripted.exists_exhausted {responses : List Json} {k : Nat} {o : MockOutcome}
    (hscript : Scripted .error responses k o) (hle : responses.length ≤ k) :
    ∃ cause, o = .failure ⟨"MockResponsesExhausted", some cause⟩ := by
  cases hscript with
  | response h => exact absurd h (Nat.not_lt.mpr hle)
  | last _ hpolicy => cases hpolicy
  | exhausted _ _ cause => exact ⟨cause, rfl⟩

theorem MockRule.outcome_scripted (exhaustion : Exhaustion) (state : String)
    (responses : List Json) (k : Nat) (input : Json) :
    Scripted exhaustion responses k (outcome exhaustion state (.stateful responses) k input) := by
  unfold outcome
  dsimp only
  rcases Nat.lt_or_ge k responses.length with hlt | hge
  · rw [List.getElem?_eq_getElem hlt]
    exact .response hlt
  rw [List.getElem?_eq_none hge]
  by_cases hne : responses = []
  · subst hne
    exact .exhausted hge (.inr rfl) _
  rw [List.getLast?_eq_some_getLast hne]
  cases exhaustion with
  | repeatLast => exact .last hge rfl hne
  | error => exact .exhausted hge (.inl rfl) _

/-! ## Independence -/

namespace MockEngine

open MockCall

/-- For each policy and state there is one way to answer from the first rule of the state, the
number of a call of this state and its input, whatever else is configured and called; from a
stateful rule it gives the responses in order. And the calls of a state are counted, also without
a rule. -/
theorem answers_independent (exhaustion : Exhaustion) (state : String) :
    ∃ respond : Option MockRule → Nat → Json → MockResponse,
      (∀ (config : MockConfig) (calls : List MockCall) (i : Nat) (input : Json),
        calls[i]? = some ⟨state, input⟩ →
          ((fresh config exhaustion).answers calls)[i]? =
            some (respond (config.mocks.find? (·.state == state)) (countOf state (calls.take i))
              input)) ∧
      (∀ rule responses k input, rule.behavior = .stateful responses →
        (respond (some rule) k input).delay = rule.delay ∧
          Scripted exhaustion responses k (respond (some rule) k input).outcome) ∧
      ∀ (config : MockConfig) (calls : List MockCall),
        ((fresh config exhaustion).after calls).callCount state = countOf state calls := by
  refine ⟨fun rule k input => MockRule.answer exhaustion state rule k input,
    fun config calls i input hcall => ?_, fun rule responses k input hrule => ?_,
    fun config calls => ?_⟩
  · rw [getElem?_answers, hcall]
    exact congrArg (fun k => some (MockRule.answer exhaustion state _ k input)) (Nat.zero_add _)
  · refine ⟨rfl, ?_⟩
    change Scripted _ _ _ (MockRule.outcome exhaustion state rule.behavior k input)
    rw [hrule]
    exact MockRule.outcome_scripted exhaustion state responses k input
  · rw [callCount_after]
    exact Nat.zero_add _

def pollRule : MockRule := ⟨"Poll", none, .stateful [.str "wait", .str "done"]⟩

/-- A second rule for a state is never asked. -/
def polling : MockConfig := { mocks := [pollRule, ⟨"Poll", none, .fixed .null⟩] }

theorem answers_independent_polling :
    let calls : List MockCall :=
      [⟨"Poll", .null⟩, ⟨"Log", .null⟩, ⟨"Poll", .null⟩, ⟨"Log", .null⟩, ⟨"Poll", .null⟩]
    let answers := (fresh polling .error).answers calls
    calls[2]? = some ⟨"Poll", .null⟩ ∧ calls[4]? = some ⟨"Poll", .null⟩ ∧
      answers[2]?.map (·.outcome) = some (.value (.str "done")) ∧
      (∃ cause, answers[4]?.map (·.outcome) =
        some (.failure ⟨"MockResponsesExhausted", some cause⟩)) ∧
      ((fresh polling .error).after calls).callCount "Poll" = 3 := by
  intro calls answers
  obtain ⟨respond, hanswer, hscript, hcount⟩ := answers_independent .error "Poll"
  have hrule : polling.mocks.find? (·.state == "Poll") = some pollRule := by simp [polling, pollRule]
  have hsecond := hanswer polling calls 2 .null rfl
  have hthird := hanswer polling calls 4 .null rfl
  rw [hrule] at hsecond hthird
  have hdone := (hscript pollRule _ 1 .null rfl).2.eq_response (by decide)
  obtain ⟨cause, hover⟩ := (hscript pollRule _ 2 .null rfl).2.exists_exhausted (by decide)
  refine ⟨rfl, rfl, ?_, ⟨cause, ?_⟩, hcount polling calls⟩
  · rw [hsecond]
    exact congrArg some hdone
  · rw [hthird]
    exact congrArg some hover

end MockEngine
end StateCheck
