import Mathlib.Data.List.Basic
import StateCheck.Proofs.Machine.Distinct
/-!
The scopes of a machine at every depth.

`Machine.Within` lists them with their labels. When the check of the references fails, its error
names a reference of one of them that leads nowhere (`Machine.checkReferences_error`). A table from
names to places in the list of states (`Machine.nameIndex`) finds the same states as a search of the
list (`Machine.indexed?_eq_state?`).
-/
namespace StateCheck
set_option autoImplicit false

/-- A state owns a machine under the label that the name of the state gives it. -/
inductive State.Owns : State → ScopeLabel → Machine → Prop
  | processor {name : String} {comment : Option String} {spec : MapSpec} {m : Machine} :
      Owns ⟨name, comment, .map spec m⟩ (.processor name) m
  | branch {name : String} {comment : Option String} {spec : ParallelSpec}
      {branches : List Machine} {i : Nat} {m : Machine} :
      branches[i]? = some m → Owns ⟨name, comment, .parallel spec branches⟩ (.branch name i) m

theorem State.Owns.mem_scopes {st : State} {label : ScopeLabel} {m : Machine}
    (h : st.Owns label m) : m ∈ st.kind.scopes := by
  cases h with
  | processor => exact List.mem_singleton.mpr rfl
  | branch hbranch => exact List.mem_of_getElem? hbranch

namespace Machine

variable {m inner : Machine} {label l : ScopeLabel}

/-- A scope of a machine at some depth; the machine itself has the label `label`. -/
inductive Within (label : ScopeLabel) (m : Machine) : ScopeLabel → Machine → Prop
  | self : Within label m label m
  | owned {l l' : ScopeLabel} {outer inner : Machine} {st : State} : Within label m l outer →
      st ∈ outer.states → st.Owns l' inner → Within label m l' inner

/-- What every machine hands down to the machines that its states own, all scopes have. -/
theorem Within.inherits {P : Machine → Prop}
    (hstep : ∀ outer, P outer → ∀ st ∈ outer.states, ∀ inner ∈ st.kind.scopes, P inner)
    (h : m.Within label l inner) (hm : P m) : P inner := by
  induction h with
  | self => exact hm
  | owned _ hst howns ih => exact hstep _ ih _ hst _ howns.mem_scopes

theorem Closed.within (hm : m.Closed) (h : m.Within label l inner) : inner.Closed :=
  h.inherits (fun outer hclosed st hst => (((closed_iff outer).mp hclosed).2 st hst).2) hm

theorem Distinct.within (hm : m.Distinct) (h : m.Within label l inner) : inner.Distinct :=
  h.inherits (fun outer hdistinct => ((distinct_iff outer).mp hdistinct).2) hm

/-! ## What an error names -/

/-- An error names a reference of a scope to none of its states. -/
inductive Dangling (label : ScopeLabel) (m : Machine) : DefinitionError → Prop
  | start : m.contains m.startAt = false → Dangling label m (.unknownStartAt label m.startAt)
  | transition {st : State} {target : String} : st ∈ m.states → target ∈ st.successors →
      m.contains target = false → Dangling label m (.danglingTransition label st.name target)

end Machine

theorem checkTargets_error {label : ScopeLabel} {scope : Machine} {state : String}
    {targets : List String} {e : DefinitionError}
    (h : checkTargets label scope state targets = .error e) : ∃ target ∈ targets,
      scope.contains target = false ∧ e = .danglingTransition label state target := by
  unfold checkTargets at h
  split at h
  · rename_i target htarget
    cases h
    have hnot : scope.contains target = false := by simpa using List.find?_some htarget
    exact ⟨target, List.mem_of_find?_eq_some htarget, hnot, rfl⟩
  · cases h

theorem checkBranches_error {name : String} {branches : List Machine} {index : Nat}
    {e : DefinitionError} (h : checkBranches name index branches = .error e) : ∃ (i : Nat) (m : Machine),
      branches[i]? = some m ∧ m.checkReferences (.branch name (index + i)) = .error e := by
  induction branches generalizing index with
  | nil => cases h
  | cons m rest ih =>
    rw [checkBranches] at h
    rcases error_of_andThen h with h | h
    · exact ⟨0, m, rfl, h⟩
    · obtain ⟨i, m', hm', hcheck⟩ := ih h
      refine ⟨i + 1, m', hm', ?_⟩
      rw [show index + (i + 1) = index + 1 + i by omega]
      exact hcheck

theorem checkInner_error {st : State} {e : DefinitionError}
    (h : st.kind.checkInner st.name = .error e) :
    ∃ label m, st.Owns label m ∧ m.checkReferences label = .error e := by
  obtain ⟨name, comment, kind⟩ := st
  cases kind with
  | map spec processor =>
    rw [StateKind.checkInner] at h
    exact ⟨_, processor, .processor, h⟩
  | parallel spec branches =>
    rw [StateKind.checkInner] at h
    obtain ⟨i, m, hm, hcheck⟩ := checkBranches_error h
    rw [Nat.zero_add] at hcheck
    exact ⟨_, m, .branch hm, hcheck⟩
  | _ => cases h

theorem checkStates_error {label : ScopeLabel} {scope : Machine} {states : List State}
    {e : DefinitionError} (h : checkStates label scope states = .error e) : ∃ st ∈ states,
      (∃ target ∈ st.successors,
        scope.contains target = false ∧ e = .danglingTransition label st.name target) ∨
      ∃ l m, st.Owns l m ∧ m.checkReferences l = .error e := by
  induction states with
  | nil => cases h
  | cons st rest ih =>
    obtain ⟨name, comment, kind⟩ := st
    rw [checkStates] at h
    rcases error_of_andThen h with h | h
    · exact ⟨_, List.mem_cons_self .., .inl (checkTargets_error h)⟩
    rcases error_of_andThen h with h | h
    · have hinner : (State.mk name comment kind).kind.checkInner name = .error e := h
      exact ⟨_, List.mem_cons_self .., .inr (checkInner_error hinner)⟩
    · obtain ⟨st, hst, hfound⟩ := ih h
      exact ⟨st, List.mem_cons_of_mem _ hst, hfound⟩

namespace Machine

theorem checkReferences_error {m : Machine} {label : ScopeLabel} {e : DefinitionError}
    (h : m.checkReferences label = .error e) :
    ∃ l inner, m.Within label l inner ∧ inner.Dangling l e := by
  -- The induction goes inwards, through the scopes where the check still fails.
  suffices hall : ∀ inner l, m.Within label l inner → inner.checkReferences l = .error e →
      ∃ l inner, m.Within label l inner ∧ inner.Dangling l e from hall m label .self h
  intro inner
  induction inner using Machine.induction with
  | step inner ih =>
    intro l hwithin hcheck
    obtain ⟨comment, startAt, timeoutSeconds, states⟩ := inner
    rw [checkReferences] at hcheck
    split at hcheck
    · obtain ⟨st, hst, ⟨target, htarget, hnot, rfl⟩ | ⟨l', owned, howns, howned⟩⟩ :=
        checkStates_error hcheck
      · exact ⟨l, _, hwithin, .transition hst htarget hnot⟩
      · exact ih st hst owned howns.mem_scopes l' (.owned hwithin hst howns) howned
    · rename_i hstart
      cases hcheck
      exact ⟨l, _, hwithin, .start (by simpa using hstart)⟩

/-! ## Finding states -/

section
variable {m : Machine} {name : String}

theorem Distinct.state?_eq_some_iff (h : m.Distinct) {st : State} :
    m.state? name = some st ↔ st ∈ m.states ∧ st.name = name := by
  constructor
  · intro hfound
    exact ⟨mem_of_state? hfound, name_of_state? hfound⟩
  · rintro ⟨hst, rfl⟩
    exact h.state?_name hst

theorem state?_eq_none_iff : m.state? name = none ↔ name ∉ m.stateNames := by
  rw [state?, List.find?_eq_none, stateNames]
  simp

/-- The places of the states in their list by their names, the last place for a repeated name. -/
def nameIndex (m : Machine) : Std.HashMap String Nat := .ofList m.stateNames.zipIdx

def indexed? (m : Machine) (name : String) : Option State :=
  m.nameIndex[name]?.bind fun i => m.states[i]?

theorem indexed?_eq_state? (hnames : m.stateNames.Nodup) (name : String) :
    m.indexed? name = m.state? name := by
  have hfst : m.stateNames.zipIdx.map Prod.fst = m.stateNames := List.zipIdx_map_fst 0 m.stateNames
  rw [indexed?, nameIndex]
  cases hst : m.state? name with
  | none =>
    have hnot : name ∉ m.stateNames := state?_eq_none_iff.mp hst
    rw [Std.HashMap.getElem?_ofList_of_contains_eq_false (by rw [hfst]; simpa using hnot)]
    rfl
  | some st =>
    obtain ⟨i, hi⟩ := List.mem_iff_getElem?.mp (mem_of_state? hst)
    have hname : (st.name == name) = true := by simpa using name_of_state? hst
    have hmem : (st.name, i) ∈ m.stateNames.zipIdx := by
      rw [List.mem_zipIdx_iff_getElem?, stateNames, List.getElem?_map, hi]
      rfl
    have hpairs : m.stateNames.zipIdx.Pairwise fun a b => (a.1 == b.1) = false := by
      rw [← hfst] at hnames
      refine (List.pairwise_map.mp hnames).imp fun {a b} hne => ?_
      simpa using hne
    rw [Std.HashMap.getElem?_ofList_of_mem hname hpairs hmem]
    exact hi

end
end Machine
end StateCheck
