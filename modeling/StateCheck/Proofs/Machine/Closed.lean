import StateCheck.Machine.Loader
import StateCheck.Proofs.Results
/-!
Machines whose references lead to states of their own scope.

`Machine.Closed` says so of a scope and of all scopes inside it. Checking the references of a
machine finds nothing wrong exactly when it is closed (`Machine.checkReferences_ok_iff`), so every
machine that is loaded from a document is closed.
-/
namespace StateCheck
set_option autoImplicit false

/-! ## Machines by depth -/

theorem sizeOf_scopes_lt {inner : Machine} {kind : StateKind} (h : inner ∈ kind.scopes) :
    sizeOf inner < sizeOf kind := by
  cases kind with
  | map spec processor =>
    rw [List.mem_singleton.mp h, StateKind.map.sizeOf_spec]
    omega
  | parallel spec branches =>
    have := List.sizeOf_lt_of_mem (show inner ∈ branches from h)
    rw [StateKind.parallel.sizeOf_spec]
    omega
  | _ => cases h

theorem State.sizeOf_kind_lt : (st : State) → sizeOf st.kind < sizeOf st
  | ⟨name, comment, kind⟩ => by
      rw [State.mk.sizeOf_spec]
      dsimp only
      omega

theorem Machine.sizeOf_states_lt : (m : Machine) → sizeOf m.states < sizeOf m
  | ⟨comment, startAt, timeoutSeconds, states⟩ => by
      rw [Machine.mk.sizeOf_spec]
      dsimp only
      omega

/-- What a machine has when all machines that its states own have it, every machine has. -/
theorem Machine.induction {P : Machine → Prop}
    (step : ∀ m : Machine, (∀ st ∈ m.states, ∀ inner ∈ st.kind.scopes, P inner) → P m)
    (m : Machine) : P m := by
  refine step m fun st hst inner hinner => Machine.induction step inner
termination_by sizeOf m
decreasing_by
  have := sizeOf_scopes_lt hinner
  have := st.sizeOf_kind_lt
  have := List.sizeOf_lt_of_mem hst
  have := m.sizeOf_states_lt
  omega

/-! ## States by name -/

theorem Machine.mem_of_state? {m : Machine} {name : String} {st : State}
    (h : m.state? name = some st) : st ∈ m.states := List.mem_of_find?_eq_some h

theorem Machine.name_of_state? {m : Machine} {name : String} {st : State}
    (h : m.state? name = some st) : st.name = name := by
  have := List.find?_some h
  simpa using this

theorem Machine.contains_iff_state? {m : Machine} {name : String} :
    m.contains name = true ↔ ∃ st, m.state? name = some st := by
  rw [Machine.contains, List.any_eq_true, ← List.find?_isSome, Option.isSome_iff_exists]
  rfl

/-! ## References -/

/-- The start and every transition of the scope lead to one of its states, and so in every scope
inside it. -/
inductive Machine.Closed : Machine → Prop
  | intro {m : Machine} : m.contains m.startAt = true →
      (∀ st ∈ m.states, ∀ target ∈ st.successors, m.contains target = true) →
      (∀ st ∈ m.states, ∀ inner ∈ st.kind.scopes, Closed inner) → Closed m

theorem Machine.closed_iff (m : Machine) :
    m.Closed ↔ m.contains m.startAt = true ∧
      ∀ st ∈ m.states, (∀ target ∈ st.successors, m.contains target = true) ∧
        ∀ inner ∈ st.kind.scopes, inner.Closed := by
  constructor
  · rintro ⟨hstart, htargets, hinner⟩
    exact ⟨hstart, fun st hst => ⟨htargets st hst, hinner st hst⟩⟩
  · rintro ⟨hstart, hstates⟩
    exact .intro hstart (fun st hst => (hstates st hst).1) fun st hst => (hstates st hst).2

theorem checkTargets_ok_iff {label : ScopeLabel} {scope : Machine} {state : String}
    {targets : List String} :
    checkTargets label scope state targets = .ok () ↔
      ∀ target ∈ targets, scope.contains target = true := by
  unfold checkTargets
  cases h : targets.find? fun target => !scope.contains target with
  | none =>
    have := List.find?_eq_none.mp h
    simpa using this
  | some target =>
    have hnot : scope.contains target = false := by simpa using List.find?_some h
    refine ⟨nofun, fun hall => ?_⟩
    rw [hall target (List.mem_of_find?_eq_some h)] at hnot
    cases hnot

theorem checkBranches_ok_iff {name : String} {branches : List Machine} (index : Nat)
    (ih : ∀ b ∈ branches, ∀ label, b.checkReferences label = .ok () ↔ b.Closed) :
    checkBranches name index branches = .ok () ↔ ∀ b ∈ branches, b.Closed := by
  induction branches generalizing index with
  | nil => simp [checkBranches]
  | cons b rest ihrest =>
    rw [checkBranches, andThen_eq_ok_iff, ih b (List.mem_cons_self ..),
      ihrest (index + 1) fun b hb => ih b (List.mem_cons_of_mem _ hb), List.forall_mem_cons]

theorem checkInner_ok_iff {name : String} {kind : StateKind}
    (ih : ∀ inner ∈ kind.scopes, ∀ label, inner.checkReferences label = .ok () ↔ inner.Closed) :
    kind.checkInner name = .ok () ↔ ∀ inner ∈ kind.scopes, inner.Closed := by
  cases kind with
  | map spec processor =>
    rw [StateKind.checkInner, ih processor (List.mem_singleton.mpr rfl)]
    simp [StateKind.scopes]
  | parallel spec branches =>
    rw [StateKind.checkInner]
    exact checkBranches_ok_iff 0 ih
  | _ => simp [StateKind.checkInner, StateKind.scopes]

theorem checkStates_ok_iff (label : ScopeLabel) {scope : Machine} {states : List State}
    (ih : ∀ st ∈ states, ∀ inner ∈ st.kind.scopes, ∀ label,
      inner.checkReferences label = .ok () ↔ inner.Closed) :
    checkStates label scope states = .ok () ↔
      ∀ st ∈ states, (∀ target ∈ st.successors, scope.contains target = true) ∧
        ∀ inner ∈ st.kind.scopes, inner.Closed := by
  induction states with
  | nil => simp [checkStates]
  | cons st rest ihrest =>
    cases st with
    | mk name comment kind =>
      rw [checkStates, andThen_eq_ok_iff, andThen_eq_ok_iff, checkTargets_ok_iff,
        checkInner_ok_iff (ih ⟨name, comment, kind⟩ (List.mem_cons_self ..)),
        ihrest fun st hst => ih st (List.mem_cons_of_mem _ hst), List.forall_mem_cons, and_assoc]

theorem Machine.checkReferences_ok_iff (m : Machine) (label : ScopeLabel) :
    m.checkReferences label = .ok () ↔ m.Closed := by
  induction m using Machine.induction generalizing label with
  | step m ih =>
    cases m with
    | mk comment startAt timeoutSeconds states =>
      rw [Machine.closed_iff, Machine.checkReferences, ← checkStates_ok_iff label ih]
      by_cases h : Machine.contains ⟨comment, startAt, timeoutSeconds, states⟩ startAt = true
      · simp [h]
      · simp [h]

theorem Machine.loaded_of_ofJson {v : Json} {m : Machine} (h : Machine.ofJson v = .ok m) :
    Load.scope .topLevel v = .ok m ∧ m.checkReferences .topLevel = .ok () := by
  have hload : Machine.ofJson.load v = .ok m := by
    unfold Machine.ofJson at h
    split at h
    · split at h
      · exact h
      · cases h
    · exact h
  obtain ⟨m', hscope, hrest⟩ := bind_eq_ok_iff.mp hload
  obtain ⟨hcheck, hm⟩ := andThen_eq_ok_iff.mp hrest
  cases hm
  exact ⟨hscope, hcheck⟩

theorem Machine.closed_of_ofJson {v : Json} {m : Machine} (h : Machine.ofJson v = .ok m) :
    m.Closed :=
  (Machine.checkReferences_ok_iff _ _).mp (Machine.loaded_of_ofJson h).2

end StateCheck
