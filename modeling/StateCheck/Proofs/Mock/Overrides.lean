import StateCheck.Mock.Config
/-!
Rules laid over a configuration.

An override takes the place of the first rule of its state, or it comes last (`MockConfig.putRule`).
After a list of overrides the last one of a state is the first rule of the state
(`MockConfig.find?_putRules`), the rules of all other states stand as they stood
(`MockConfig.filter_putRules`), and the states that are new follow in the order in which they were
first overridden (`MockConfig.statesOf_putRules`). The same overrides a second time change nothing
(`MockConfig.putRules_putRules`).
-/
namespace StateCheck
set_option autoImplicit false

namespace MockConfig

def putRules (overrides rules : List MockRule) : List MockRule :=
  overrides.foldl (fun rules rule => putRule rule rules) rules

def statesOf (rules : List MockRule) : List String := rules.map (·.state)

theorem statesOf_cons (rule : MockRule) (rest : List MockRule) :
    statesOf (rule :: rest) = rule.state :: statesOf rest := rfl

theorem putRules_cons (rule : MockRule) (rest rules : List MockRule) :
    putRules (rule :: rest) rules = putRules rest (putRule rule rules) := rfl

theorem mergedWith_eq (base : MockConfig) (overrides : List MockRule) :
    base.mergedWith overrides = { base with mocks := putRules overrides base.mocks } := rfl

/-! ## One override -/

section
variable {first second rule : MockRule} {rules : List MockRule}

theorem find?_putRule (rule : MockRule) (rules : List MockRule) (state : String) :
    (putRule rule rules).find? (·.state == state) =
      if rule.state = state then some rule else rules.find? (·.state == state) := by
  induction rules with
  | nil => by_cases h : rule.state = state <;> simp [putRule, h]
  | cons r rest ih =>
    by_cases hr : r.state = rule.state
    · rw [putRule, if_pos hr]
      by_cases h : rule.state = state <;> simp [hr, h]
    · rw [putRule, if_neg hr, List.find?_cons, List.find?_cons, ih]
      by_cases h : r.state = state
      · have hne : rule.state ≠ state := fun e => hr (h.trans e.symm)
        simp [h, hne]
      · have hstate : (r.state == state) = false := beq_eq_false_iff_ne.mpr h
        simp only [hstate]

theorem statesOf_putRule (rule : MockRule) (rules : List MockRule) :
    statesOf (putRule rule rules) =
      if rule.state ∈ statesOf rules then statesOf rules else statesOf rules ++ [rule.state] := by
  induction rules with
  | nil => rfl
  | cons r rest ih =>
    by_cases hr : r.state = rule.state
    · simp [putRule, statesOf_cons, hr]
    · have hne : rule.state ≠ r.state := fun e => hr e.symm
      rw [putRule, if_neg hr, statesOf_cons, statesOf_cons, ih]
      by_cases h : rule.state ∈ statesOf rest <;> simp [h, hne]

theorem mem_statesOf_putRule {state : String} (h : state ∈ statesOf rules) :
    state ∈ statesOf (putRule rule rules) := by
  rw [statesOf_putRule]
  split
  · exact h
  · exact List.mem_append_left _ h

theorem filter_putRule {p : String → Bool} (h : p rule.state = false) :
    (putRule rule rules).filter (fun r => p r.state) = rules.filter fun r => p r.state := by
  induction rules with
  | nil => simp [putRule, h]
  | cons r rest ih =>
    by_cases hr : r.state = rule.state
    · simp [putRule, hr, h]
    · simp only [putRule, hr, if_false, List.filter_cons, ih]

theorem putRule_putRule (h : first.state = second.state) :
    putRule second (putRule first rules) = putRule second rules := by
  induction rules with
  | nil => simp [putRule, h]
  | cons r rest ih =>
    by_cases hr : r.state = first.state
    · simp [putRule, hr, h]
    · have hne : r.state ≠ second.state := fun e => hr (e.trans h.symm)
      simp only [putRule, hr, hne, if_false, ih]

theorem putRule_comm (hne : first.state ≠ second.state) (h : first.state ∈ statesOf rules) :
    putRule second (putRule first rules) = putRule first (putRule second rules) := by
  induction rules with
  | nil => cases h
  | cons r rest ih =>
    by_cases hr : r.state = first.state
    · have hother : r.state ≠ second.state := fun e => hne (hr.symm.trans e)
      simp [putRule, hr, hne]
    · have hrest : first.state ∈ statesOf rest :=
        (List.mem_cons.mp h).resolve_left fun e => hr e.symm
      by_cases hs : r.state = second.state
      · have hback : second.state ≠ first.state := fun e => hne e.symm
        simp [putRule, hs, hback]
      · simp only [putRule, hr, hs, if_false, ih hrest]

theorem putRule_of_find? (h : rules.find? (·.state == rule.state) = some rule) :
    putRule rule rules = rules := by
  induction rules with
  | nil => cases h
  | cons r rest ih =>
    rw [List.find?_cons] at h
    by_cases hr : r.state = rule.state
    · simp only [hr, beq_self_eq_true] at h
      rw [putRule, if_pos hr, Option.some.inj h]
    · simp only [beq_eq_false_iff_ne.mpr hr] at h
      rw [putRule, if_neg hr, ih h]

end

/-! ## Several overrides -/

section
variable {rule : MockRule} {rules overrides : List MockRule}

theorem findRev?_cons (rule : MockRule) (rest : List MockRule) (state : String) :
    (rule :: rest).findRev? (·.state == state) =
      (rest.findRev? (·.state == state)).or (if rule.state = state then some rule else none) := by
  rw [List.findRev?]
  cases rest.findRev? (·.state == state) with
  | some r => rfl
  | none => by_cases h : rule.state = state <;> simp [h]

theorem find?_putRules (overrides rules : List MockRule) (state : String) :
    (putRules overrides rules).find? (·.state == state) =
      (overrides.findRev? (·.state == state)).or (rules.find? (·.state == state)) := by
  induction overrides generalizing rules with
  | nil => rfl
  | cons rule rest ih =>
    rw [putRules_cons, ih, find?_putRule, findRev?_cons, Option.or_assoc]
    by_cases h : rule.state = state <;> simp [h]

theorem statesOf_putRules (overrides rules : List MockRule) :
    statesOf (putRules overrides rules) =
      statesOf rules ++ ((statesOf overrides).filter (· ∉ statesOf rules)).eraseDups := by
  induction overrides generalizing rules with
  | nil => simp [putRules, statesOf]
  | cons rule rest ih =>
    rw [putRules_cons, ih, statesOf_putRule, statesOf_cons, List.filter_cons]
    by_cases h : rule.state ∈ statesOf rules
    · simp [h]
    · -- The new state is the first one to come, and it is not new any more for the rest.
      have hrest : ((statesOf rest).filter (· ∉ statesOf rules ++ [rule.state])) =
          ((statesOf rest).filter (· ∉ statesOf rules)).filter fun s => !s == rule.state := by
        rw [List.filter_filter]
        congr 1
        funext s
        by_cases hs : s = rule.state <;> simp [hs]
      simp only [h, if_false, not_false_eq_true, decide_true, if_true, List.eraseDups_cons,
        List.append_assoc, List.singleton_append, hrest]

theorem filter_putRules {p : String → Bool} (h : ∀ rule ∈ overrides, p rule.state = false) :
    (putRules overrides rules).filter (fun r => p r.state) = rules.filter fun r => p r.state := by
  induction overrides generalizing rules with
  | nil => rfl
  | cons rule rest ih =>
    have hrest : ∀ r ∈ rest, p r.state = false := fun r hr => h r (List.mem_cons_of_mem _ hr)
    rw [putRules_cons, ih hrest, filter_putRule (h rule (List.mem_cons_self ..))]

/-- An override in front of others leaves nothing behind when one of them is for its state too. -/
theorem putRules_putRule (hlater : ∃ later ∈ overrides, later.state = rule.state)
    (h : rule.state ∈ statesOf rules) :
    putRules overrides (putRule rule rules) = putRules overrides rules := by
  induction overrides generalizing rules with
  | nil =>
    obtain ⟨later, hmem, -⟩ := hlater
    cases hmem
  | cons next rest ih =>
    rw [putRules_cons, putRules_cons]
    by_cases hnext : next.state = rule.state
    · rw [putRule_putRule hnext.symm]
    · rw [putRule_comm (fun e => hnext e.symm) h]
      refine ih ?_ (mem_statesOf_putRule h)
      obtain ⟨later, hmem, hstate⟩ := hlater
      rcases List.mem_cons.mp hmem with rfl | hmem
      · exact absurd hstate hnext
      · exact ⟨later, hmem, hstate⟩

/-- Overrides change nothing in rules that have the last override of every state in front. -/
theorem putRules_of_settled (h : ∀ state rule, overrides.findRev? (·.state == state) = some rule →
    rules.find? (·.state == state) = some rule) : putRules overrides rules = rules := by
  induction overrides generalizing rules with
  | nil => rfl
  | cons next rest ih =>
    rw [putRules_cons]
    have hrest : ∀ state rule, rest.findRev? (·.state == state) = some rule →
        rules.find? (·.state == state) = some rule := fun state rule hrule =>
      h state rule (by rw [findRev?_cons, hrule]; rfl)
    cases hlater : rest.findRev? (·.state == next.state) with
    | none =>
      have hfirst : rules.find? (·.state == next.state) = some next :=
        h _ _ (by rw [findRev?_cons, hlater, if_pos rfl]; rfl)
      rw [putRule_of_find? hfirst, ih hrest]
    | some later =>
      have hfirst := hrest _ _ hlater
      have hmem : next.state ∈ statesOf rules := by
        have hstate : later.state = next.state := by simpa using List.find?_some hfirst
        rw [← hstate]
        exact List.mem_map_of_mem (List.mem_of_find?_eq_some hfirst)
      have hoverridden : ∃ r ∈ rest, r.state = next.state := by
        rw [List.findRev?_eq_find?_reverse] at hlater
        exact ⟨later, List.mem_reverse.mp (List.mem_of_find?_eq_some hlater),
          by simpa using List.find?_some hlater⟩
      rw [putRules_putRule hoverridden hmem, ih hrest]

theorem putRules_putRules (overrides rules : List MockRule) :
    putRules overrides (putRules overrides rules) = putRules overrides rules := by
  refine putRules_of_settled fun state rule hrule => ?_
  rw [find?_putRules, hrule]
  rfl

end
end MockConfig
end StateCheck
