import StateCheck.Proofs.Machine.Within
/-!
The references of a document.

What a document refers to is said without loading it: the scopes of a document at every depth
(`Json.ScopeOf`), the states that the body of a state leads to (`Json.RefersTo`), and the scopes
whose references all lead to states of their own (`Json.Resolved`). Loading keeps scopes and
references (`Load.within_of_scopeOf`, `Load.scopeOf_of_within`, `Load.mem_successors_iff`), so that a
document whose scopes load is refused for an unresolved reference or not at all.
-/
namespace StateCheck
set_option autoImplicit false

/-! ## Documents -/

namespace Json

/-- The bodies of the states of a scope by name. -/
def stateEntries (scope : Json) : Fields := ((scope.get? "States").bind asFields?).getD []

def Declares (scope : Json) (name : String) : Prop := name ∈ Fields.keys scope.stateEntries

/-- The body of a state leads to another state. A field counts only for the types of states that
have it. -/
inductive RefersTo (body : Json) : String → Prop
  | next {type target : String} : body.getString? "Type" = some type →
      type ∈ ["Pass", "Task", "Wait", "Map", "Parallel"] →
      body.getString? "Next" = some target → RefersTo body target
  | choice {rules : List Json} {rule : Json} {target : String} :
      body.getString? "Type" = some "Choice" → body.get? "Choices" = some (.arr rules) →
      rule ∈ rules → rule.getString? "Next" = some target → RefersTo body target
  | default {target : String} : body.getString? "Type" = some "Choice" →
      body.getString? "Default" = some target → RefersTo body target
  | catcher {type target : String} {entries : List Json} {entry : Json} :
      body.getString? "Type" = some type → type ∈ ["Task", "Map", "Parallel"] →
      body.get? "Catch" = some (.arr entries) → entry ∈ entries →
      entry.getString? "Next" = some target → RefersTo body target

/-- The body of the state `name` has a scope in it. -/
inductive Holds (name : String) (body : Json) : ScopeLabel → Json → Prop
  | processor {scope : Json} : body.getString? "Type" = some "Map" →
      (body.get? "ItemProcessor").or (body.get? "Iterator") = some scope →
      Holds name body (.processor name) scope
  | branch {items : List Json} {i : Nat} {scope : Json} :
      body.getString? "Type" = some "Parallel" → body.get? "Branches" = some (.arr items) →
      items[i]? = some scope → Holds name body (.branch name i) scope

/-- A scope of a document at some depth; the document itself has the label `label`. -/
inductive ScopeOf (label : ScopeLabel) (doc : Json) : ScopeLabel → Json → Prop
  | self : ScopeOf label doc label doc
  | held {l l' : ScopeLabel} {outer body inner : Json} {name : String} :
      ScopeOf label doc l outer → (name, body) ∈ outer.stateEntries → Holds name body l' inner →
      ScopeOf label doc l' inner

/-- The start and every transition of a scope lead to a state of the same scope. -/
structure Resolved (scope : Json) : Prop where
  start : ∃ target, scope.getString? "StartAt" = some target ∧ scope.Declares target
  transitions : ∀ name body target, (name, body) ∈ scope.stateEntries → body.RefersTo target →
    scope.Declares target

/-- An error names a reference of a scope that leads to no state of the same scope. -/
inductive Unresolved (label : ScopeLabel) (scope : Json) : DefinitionError → Prop
  | start {target : String} : scope.getString? "StartAt" = some target → ¬ scope.Declares target →
      Unresolved label scope (.unknownStartAt label target)
  | transition {name target : String} {body : Json} : (name, body) ∈ scope.stateEntries →
      body.RefersTo target → ¬ scope.Declares target →
      Unresolved label scope (.danglingTransition label name target)

theorem Resolved.not_unresolved {scope : Json} (h : scope.Resolved) {label : ScopeLabel}
    {e : DefinitionError} : ¬ scope.Unresolved label e := by
  rintro (⟨htarget, hnot⟩ | ⟨hentry, hrefers, hnot⟩)
  · obtain ⟨start, hstart, hdeclares⟩ := h.start
    rw [htarget] at hstart
    cases hstart
    exact hnot hdeclares
  · exact hnot (h.transitions _ _ _ hentry hrefers)

end Json

/-! ## States -/

theorem State.mem_successors_iff {st : State} {target : String} : target ∈ st.successors ↔
    st.kind.transition? = some (.next target) ∨ target ∈ st.kind.choiceTargets ∨
      target ∈ st.kind.catchers.map (·.next) := by
  have hnext : target ∈ st.nextTarget ↔ st.kind.transition? = some (.next target) := by
    unfold State.nextTarget
    split
    · rename_i next hnext
      rw [hnext]
      simp [eq_comm]
    · rename_i hother
      constructor
      · nofun
      · intro h
        exact absurd h (hother target)
  rw [State.successors, List.mem_append, List.mem_append, hnext, or_assoc]

namespace Load

section
variable {name typeName target : String} {body : Json} {kind : StateKind}

theorem Reads.transition_iff (h : Reads name body typeName kind) :
    kind.transition? = some (.next target) ↔
      typeName ∈ ["Pass", "Task", "Wait", "Map", "Parallel"] ∧
        body.getString? "Next" = some target := by
  have hnext : ∀ {t : Transition}, transition body = .ok t →
      (some t = some (Transition.next target) ↔ body.getString? "Next" = some target) := by
    intro t ht
    rw [Option.some.injEq, transition_next_iff ht]
  cases h with
  | pass hs => simpa [StateKind.transition?] using hnext (pass_ok hs)
  | task hs => simpa [StateKind.transition?] using hnext (task_ok hs).2
  | wait hs => simpa [StateKind.transition?] using hnext (wait_ok hs)
  | map _ _ hs => simpa [StateKind.transition?] using hnext (map_ok hs).2
  | parallel _ _ hs => simpa [StateKind.transition?] using hnext (parallel_ok hs).2
  | _ => simp [StateKind.transition?]

theorem Reads.choice_iff (h : Reads name body typeName kind) :
    target ∈ kind.choiceTargets ↔ typeName = "Choice" ∧
      ((∃ rules, body.get? "Choices" = some (.arr rules) ∧
        ∃ rule ∈ rules, rule.getString? "Next" = some target) ∨
      body.getString? "Default" = some target) := by
  cases h with
  | choice hs =>
    obtain ⟨rules, hrules, hread, hdefault⟩ := choice_ok hs
    rw [StateKind.choiceTargets, List.mem_append, mem_indexed_iff choiceRule_next hread, hdefault,
      hrules]
    simp
  | _ => simp [StateKind.choiceTargets]

theorem Reads.catch_iff (h : Reads name body typeName kind) :
    target ∈ kind.catchers.map (·.next) ↔ typeName ∈ ["Task", "Map", "Parallel"] ∧
      ∃ entries, body.get? "Catch" = some (.arr entries) ∧
        ∃ entry ∈ entries, entry.getString? "Next" = some target := by
  cases h with
  | task hs =>
    rw [StateKind.catchers, mem_catchers_iff (task_ok hs).1]
    simp
  | map _ _ hs =>
    rw [StateKind.catchers, mem_catchers_iff (map_ok hs).1]
    simp
  | parallel _ _ hs =>
    rw [StateKind.catchers, mem_catchers_iff (parallel_ok hs).1]
    simp
  | _ => simp [StateKind.catchers]

theorem mem_successors_iff {st : State} (h : state name body = .ok st) :
    target ∈ st.successors ↔ body.RefersTo target := by
  obtain ⟨-, typeName, htype, hreads⟩ := state_ok h
  have htypeName : ∀ {type}, body.getString? "Type" = some type → type = typeName := by
    intro type h
    rw [htype] at h
    exact (Option.some.inj h).symm
  -- The three ways out of a state are the fields that its type has.
  rw [State.mem_successors_iff, hreads.transition_iff, hreads.choice_iff, hreads.catch_iff]
  constructor
  · rintro (⟨hmoves, hnext⟩ | ⟨rfl, ⟨rules, hrules, rule, hrule, hnext⟩ | hdefault⟩ |
      ⟨hcatches, entries, hentries, entry, hentry, hnext⟩)
    · exact .next htype hmoves hnext
    · exact .choice htype hrules hrule hnext
    · exact .default htype hdefault
    · exact .catcher htype hcatches hentries hentry hnext
  · intro hrefers
    cases hrefers with
    | next h hmoves hnext =>
      obtain rfl := htypeName h
      exact .inl ⟨hmoves, hnext⟩
    | choice h hrules hrule hnext =>
      exact .inr (.inl ⟨(htypeName h).symm, .inl ⟨_, hrules, _, hrule, hnext⟩⟩)
    | default h hdefault => exact .inr (.inl ⟨(htypeName h).symm, .inr hdefault⟩)
    | catcher h hcatches hentries hentry hnext =>
      obtain rfl := htypeName h
      exact .inr (.inr ⟨hcatches, _, hentries, _, hentry, hnext⟩)

theorem processorField?_eq (body : Json) :
    processorField? body = (body.get? "ItemProcessor").or (body.get? "Iterator") := by
  unfold processorField?
  cases body.get? "ItemProcessor" <;> rfl

theorem owns_of_holds {st : State} (h : state name body = .ok st) {label : ScopeLabel} {v : Json}
    (hholds : body.Holds name label v) : ∃ m, st.Owns label m ∧ scope label v = .ok m := by
  obtain ⟨hname, typeName, htype, hreads⟩ := state_ok h
  obtain ⟨own, comment, kind⟩ := st
  dsimp only at hname hreads
  subst hname
  cases hholds with
  | processor hmap hfield =>
    rw [htype] at hmap
    cases hreads with
    | map hprocessor hscope hs =>
      rw [processorField?_eq, hfield] at hprocessor
      cases hprocessor
      exact ⟨_, .processor, hscope⟩
    | _ => simp at hmap
  | branch hparallel hitems hitem =>
    rw [htype] at hparallel
    cases hreads with
    | parallel hbranches hmachines hs =>
      rw [hitems] at hbranches
      cases hbranches
      obtain ⟨m, hm, hscope⟩ := (branches_ok hmachines).2 _ _ hitem
      rw [Nat.zero_add] at hscope
      exact ⟨m, .branch hm, hscope⟩
    | _ => simp at hparallel

theorem holds_of_owns {st : State} (h : state name body = .ok st) {label : ScopeLabel} {m : Machine}
    (howns : st.Owns label m) : ∃ v, body.Holds name label v ∧ scope label v = .ok m := by
  obtain ⟨hname, typeName, htype, hreads⟩ := state_ok h
  cases howns with
  | processor =>
    obtain rfl := hname
    cases hreads with
    | map hprocessor hscope hs =>
      rw [processorField?_eq] at hprocessor
      exact ⟨_, .processor htype hprocessor, hscope⟩
  | branch hbranch =>
    obtain rfl := hname
    cases hreads with
    | parallel hitems hmachines hs =>
      obtain ⟨v, hv, hscope⟩ := branch_ok hmachines hbranch
      exact ⟨v, .branch htype hitems hv, hscope⟩

end

/-! ## Scopes -/

variable {label l : ScopeLabel} {v w : Json} {m inner : Machine}

theorem scope_entries (h : scope label v = .ok m) : m.stateNames = Fields.keys v.stateEntries ∧
    (∀ st ∈ m.states, ∃ body, (st.name, body) ∈ v.stateEntries ∧ state st.name body = .ok st) ∧
    ∀ name body, (name, body) ∈ v.stateEntries → ∃ st ∈ m.states, state name body = .ok st := by
  obtain ⟨-, fields, hfields, hstates⟩ := scope_ok h
  have hentries : v.stateEntries = fields := by
    rw [Json.stateEntries, hfields]
    rfl
  rw [hentries]
  exact states_ok hstates

theorem contains_iff_declares (h : scope label v = .ok m) {name : String} :
    m.contains name = true ↔ v.Declares name := by
  rw [Json.Declares, ← (scope_entries h).1, Machine.contains, Machine.stateNames]
  simp

theorem within_of_scopeOf (h : scope label v = .ok m) (hscope : v.ScopeOf label l w) :
    ∃ inner, m.Within label l inner ∧ scope l w = .ok inner := by
  induction hscope with
  | self => exact ⟨m, .self, h⟩
  | held _ hentry hholds ih =>
    obtain ⟨outer, hwithin, houter⟩ := ih
    obtain ⟨st, hst, hstate⟩ := (scope_entries houter).2.2 _ _ hentry
    obtain ⟨inner, howns, hinner⟩ := owns_of_holds hstate hholds
    exact ⟨inner, .owned hwithin hst howns, hinner⟩

theorem scopeOf_of_within (h : scope label v = .ok m) (hwithin : m.Within label l inner) :
    ∃ w, v.ScopeOf label l w ∧ scope l w = .ok inner := by
  induction hwithin with
  | self => exact ⟨v, .self, h⟩
  | owned _ hst howns ih =>
    obtain ⟨outer, hscope, houter⟩ := ih
    obtain ⟨body, hentry, hstate⟩ := (scope_entries houter).2.1 _ hst
    obtain ⟨w, hholds, hw⟩ := holds_of_owns hstate howns
    exact ⟨w, .held hscope hentry hholds, hw⟩

theorem resolved_of_closed (h : scope label v = .ok m) (hm : m.Closed) : v.Resolved := by
  obtain ⟨hstart, hstates⟩ := (Machine.closed_iff m).mp hm
  refine ⟨⟨m.startAt, (scope_ok h).1, (contains_iff_declares h).mp hstart⟩, ?_⟩
  intro name body target hentry hrefers
  obtain ⟨st, hst, hstate⟩ := (scope_entries h).2.2 name body hentry
  have htarget : target ∈ st.successors := (mem_successors_iff hstate).mpr hrefers
  exact (contains_iff_declares h).mp ((hstates st hst).1 target htarget)

theorem unresolved_of_dangling (h : scope label v = .ok m) {e : DefinitionError}
    (he : m.Dangling label e) : v.Unresolved label e := by
  have hdeclares : ∀ {name}, m.contains name = false → ¬ v.Declares name := by
    intro name hnot hdeclares
    rw [(contains_iff_declares h).mpr hdeclares] at hnot
    cases hnot
  cases he with
  | start hnot => exact .start (scope_ok h).1 (hdeclares hnot)
  | transition hst htarget hnot =>
    obtain ⟨body, hentry, hstate⟩ := (scope_entries h).2.1 _ hst
    exact .transition hentry ((mem_successors_iff hstate).mp htarget) (hdeclares hnot)

end Load

namespace Machine

/-- A machine finds the states of a scope: under the name of a state that state alone, under any
other name nothing, and its table of names leads to the same states. -/
structure Finds (m : Machine) (scope : Json) : Prop where
  some_iff : ∀ name st, m.state? name = some st ↔ st ∈ m.states ∧ st.name = name
  none_iff : ∀ name, m.state? name = none ↔ ¬ scope.Declares name
  indexed : ∀ name, m.indexed? name = m.state? name

theorem Distinct.finds {label : ScopeLabel} {scope : Json} {m : Machine} (hm : m.Distinct)
    (h : Load.scope label scope = .ok m) : m.Finds scope where
  some_iff _ _ := hm.state?_eq_some_iff
  none_iff name := by rw [state?_eq_none_iff, (Load.scope_entries h).1, Json.Declares]
  indexed := indexed?_eq_state? ((distinct_iff m).mp hm).1

/-- After its scopes are loaded, a document in the one query language is accepted or refused by the
check of the references alone. -/
theorem ofJson_of_scope {doc : Json} {m : Machine} (hload : Load.scope .topLevel doc = .ok m)
    (hlanguage : ∀ language, doc.getString? "QueryLanguage" = some language →
      language = "JSONPath") :
    ofJson doc = (m.checkReferences .topLevel >>= fun _ => .ok m) := by
  have hscope : ofJson.load doc = (m.checkReferences .topLevel >>= fun _ => .ok m) := by
    rw [ofJson.load, hload]
    rfl
  unfold ofJson
  split
  · rename_i language hfound
    rw [if_pos (hlanguage language hfound), hscope]
  · exact hscope

/-- A document whose scopes all load is accepted exactly when in each of them, at every depth, the
start and all transitions lead to states of the same scope. The machine then finds the states of
each scope by their names. Otherwise the error names a scope of the document, a state and a target
of this state that is unresolved there. -/
theorem ofJson_references {doc : Json} (hdoc : doc.Sorted) {m : Machine}
    (hload : Load.scope .topLevel doc = .ok m)
    (hlanguage : ∀ language, doc.getString? "QueryLanguage" = some language →
      language = "JSONPath") :
    ((∃ accepted, ofJson doc = .ok accepted) ↔
      ∀ label scope, doc.ScopeOf .topLevel label scope → scope.Resolved) ∧
    (∀ accepted, ofJson doc = .ok accepted →
      (∀ label scope, doc.ScopeOf .topLevel label scope → ∃ inner,
        accepted.Within .topLevel label inner ∧ Load.scope label scope = .ok inner ∧
          inner.Finds scope) ∧
      ∀ label inner, accepted.Within .topLevel label inner → ∃ scope,
        doc.ScopeOf .topLevel label scope ∧ Load.scope label scope = .ok inner ∧
          inner.Finds scope) ∧
    ∀ e, ofJson doc = .error e →
      ∃ label scope, doc.ScopeOf .topLevel label scope ∧ scope.Unresolved label e := by
  have hof := ofJson_of_scope hload hlanguage
  have hdistinct : m.Distinct := Load.distinct_scope hdoc hload
  have herror : ∀ e, ofJson doc = .error e →
      ∃ label scope, doc.ScopeOf .topLevel label scope ∧ scope.Unresolved label e := by
    intro e he
    rw [hof] at he
    rcases error_of_andThen he with hcheck | hok
    · obtain ⟨label, inner, hwithin, hdangling⟩ := checkReferences_error hcheck
      obtain ⟨scope, hscope, hinner⟩ := Load.scopeOf_of_within hload hwithin
      exact ⟨label, scope, hscope, Load.unresolved_of_dangling hinner hdangling⟩
    · cases hok
  refine ⟨⟨?_, fun hresolved => ?_⟩, fun accepted haccepted => ?_, herror⟩
  · rintro ⟨accepted, haccepted⟩ label scope hscope
    rw [hof] at haccepted
    have hclosed : m.Closed :=
      (checkReferences_ok_iff m .topLevel).mp (andThen_eq_ok_iff.mp haccepted).1
    obtain ⟨inner, hwithin, hinner⟩ := Load.within_of_scopeOf hload hscope
    exact Load.resolved_of_closed hinner (hclosed.within hwithin)
  · cases hresult : ofJson doc with
    | ok accepted => exact ⟨accepted, rfl⟩
    | error e =>
      -- The error would name an unresolved reference, and there is none.
      obtain ⟨label, scope, hscope, hunresolved⟩ := herror e hresult
      exact absurd hunresolved (hresolved label scope hscope).not_unresolved
  · rw [hof] at haccepted
    obtain rfl : m = accepted := by
      have := (andThen_eq_ok_iff.mp haccepted).2
      exact Except.ok.inj this
    constructor
    · intro label scope hscope
      obtain ⟨inner, hwithin, hinner⟩ := Load.within_of_scopeOf hload hscope
      exact ⟨inner, hwithin, hinner, (hdistinct.within hwithin).finds hinner⟩
    · intro label inner hwithin
      obtain ⟨scope, hscope, hinner⟩ := Load.scopeOf_of_within hload hwithin
      exact ⟨scope, hscope, hinner, (hdistinct.within hwithin).finds hinner⟩

/-- A Map state whose items pass through `Inner` to a target; `Done` is a state outside it, `Last`
one inside. -/
def looping (target : String) : Json :=
  .obj [("StartAt", .str "Loop"), ("States", .obj [
    ("Done", .obj [("Type", .str "Succeed")]),
    ("Loop", .obj [("ItemProcessor", .obj [("StartAt", .str "Inner"), ("States", .obj [
        ("Inner", .obj [("Next", .str target), ("Type", .str "Pass")]),
        ("Last", .obj [("Type", .str "Succeed")])])]),
      ("Next", .str "Done"), ("Type", .str "Map")])])]

/-- The machine that is read from the document. -/
def loopingMachine (target : String) : Machine :=
  ⟨none, "Loop", none, [⟨"Done", none, .succeed ⟨{}⟩⟩,
    ⟨"Loop", none, .map ⟨{}, .whole, none, none, none, .inline, none, none, none, none, [], [],
        .next "Done"⟩
      ⟨none, "Inner", none, [⟨"Inner", none, .pass ⟨{}, .whole, none, none, .next target⟩⟩,
        ⟨"Last", none, .succeed ⟨{}⟩⟩]⟩⟩]⟩

theorem scope_looping (target : String) :
    Load.scope .topLevel (looping target) = .ok (loopingMachine target) := by cbv

theorem ofJson_references_looping :
    ((∃ m, ofJson (looping "Last") = .ok m) ∧ ∀ label scope,
      (looping "Last").ScopeOf .topLevel label scope → scope.Resolved) ∧
    ofJson (looping "Done") = .error (.danglingTransition (.processor "Loop") "Inner" "Done") ∧
    ∃ label scope, (looping "Done").ScopeOf .topLevel label scope ∧
      scope.Unresolved label (.danglingTransition (.processor "Loop") "Inner" "Done") := by
  obtain ⟨hlastSorted, hdoneSorted⟩ : (looping "Last").Sorted ∧ (looping "Done").Sorted := by
    simp only [looping, Json.Sorted, Json.SortedFields]
    decide
  have hlanguage : ∀ target language,
      (looping target).getString? "QueryLanguage" = some language → language = "JSONPath" := by
    intro target language h
    cases h
  have hof := fun target => ofJson_of_scope (scope_looping target) (hlanguage target)
  have hlast : ofJson (looping "Last") = .ok (loopingMachine "Last") := by
    rw [hof]
    rfl
  have hdone : ofJson (looping "Done") =
      .error (.danglingTransition (.processor "Loop") "Inner" "Done") := by
    rw [hof]
    rfl
  obtain ⟨hresolved, -, -⟩ := ofJson_references hlastSorted (scope_looping _) (hlanguage _)
  obtain ⟨-, -, herror⟩ := ofJson_references hdoneSorted (scope_looping _) (hlanguage _)
  exact ⟨⟨⟨_, hlast⟩, hresolved.mp ⟨_, hlast⟩⟩, hdone, herror _ hdone⟩

end Machine
end StateCheck
