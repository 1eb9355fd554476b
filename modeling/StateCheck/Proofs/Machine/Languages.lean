import StateCheck.Proofs.Machine.References
/-!
The query languages of a document.

A scope and the body of a state may say in which language their paths are written. The loader asks
the document itself and nothing below it: a document without all its languages
(`Json.withoutLanguages`, `Json.withoutLanguages_holds`) is read as the same machine, or refused for
the same reason (`Load.scope_erase`).
-/
namespace StateCheck
set_option autoImplicit false

namespace Json

def languageField : String := "QueryLanguage"

/-- What a part of a document is read as. -/
inductive Place where
  | scope
  | states
  | state
  | branches
deriving DecidableEq, Repr

namespace Place

/-- Whether a field of a part names its language. -/
def isLanguage (p : Place) (key : String) : Bool :=
  (p == scope || p == state) && key == languageField

/-- What the value of a field is read as, if more than data. -/
def field (p : Place) (key : String) : Option Place :=
  match p with
  | scope => if key = "States" then some states else none
  | states => some state
  | state =>
    if key = "ItemProcessor" ∨ key = "Iterator" then some scope
    else if key = "Branches" then some branches
    else none
  | branches => none

/-- What the items of a list are read as, if more than data. -/
def item : Place → Option Place
  | branches => some scope
  | _ => none

end Place

mutual
/-- A part of a document without the languages that it and the parts in it name. -/
def erase (p : Place) : Json → Json
  | .obj fields => .obj (eraseFields p fields)
  | .arr items => .arr (eraseItems p items)
  | v => v

def eraseFields (p : Place) : Fields → Fields
  | [] => []
  | (key, v) :: rest =>
    if p.isLanguage key then eraseFields p rest
    else (key, match p.field key with
      | some q => erase q v
      | none => v) :: eraseFields p rest

def eraseItems (p : Place) : List Json → List Json
  | [] => []
  | v :: rest =>
    (match p.item with
      | some q => erase q v
      | none => v) :: eraseItems p rest
end

/-- The document with no language named in any of its scopes and states. -/
def withoutLanguages (doc : Json) : Json := doc.erase .scope

/-! ## Fields -/

/-- The value of a field once languages are erased in it. -/
def erased (p : Option Place) (v : Json) : Json :=
  match p with
  | some q => v.erase q
  | none => v

theorem get?_eraseFields (p : Place) (key : String) (fields : Fields) :
    Fields.get? key (eraseFields p fields) =
      if p.isLanguage key then none else (Fields.get? key fields).map (erased (p.field key)) := by
  induction fields with
  | nil => simp [eraseFields, Fields.get?]
  | cons entry rest ih =>
    obtain ⟨k, v⟩ := entry
    rw [eraseFields]
    by_cases hkey : k = key
    · subst hkey
      by_cases hlanguage : p.isLanguage k
      · rw [if_pos hlanguage, ih, if_pos hlanguage, if_pos hlanguage]
      · rw [if_neg hlanguage, if_neg hlanguage, Fields.get?, Fields.get?, if_pos rfl, if_pos rfl]
        rfl
    · rw [Fields.get?, if_neg hkey, ← ih]
      split
      · rfl
      · rw [Fields.get?, if_neg hkey]

theorem get?_erase (p : Place) (v : Json) (key : String) : (v.erase p).get? key =
    if p.isLanguage key then none else (v.get? key).map (erased (p.field key)) := by
  cases v with
  | obj fields =>
    rw [erase]
    exact get?_eraseFields p key fields
  | _ => simp [erase, get?]

theorem get?_erase_field {p q : Place} {key : String} (hlanguage : p.isLanguage key = false)
    (hfield : p.field key = some q) (v : Json) :
    (v.erase p).get? key = (v.get? key).map (erase q) := by
  rw [get?_erase, hlanguage, hfield]
  rfl

theorem get?_erase_data {p : Place} {key : String} (hlanguage : p.isLanguage key = false)
    (hfield : p.field key = none) (v : Json) : (v.erase p).get? key = v.get? key := by
  rw [get?_erase, hlanguage, hfield]
  cases v.get? key <;> rfl

end Json

namespace Load

open Json

/-! ## Readers of data -/

section
variable (body : Json)

theorem inputOutput_erase : inputOutput (body.erase .state) = inputOutput body := by
  simp (disch := decide) only [inputOutput, pathField, get?_erase_data]

theorem transition_erase : transition (body.erase .state) = transition body := by
  simp (disch := decide) only [transition, getString?, get?_erase_data]

theorem pathField_erase {field : String} (hlanguage : Place.state.isLanguage field = false)
    (hfield : Place.state.field field = none) :
    pathField (body.erase .state) field = pathField body field := by
  simp only [pathField, get?_erase_data hlanguage hfield]

theorem retry_erase : retry (body.erase .state) = retry body := by
  simp (disch := decide) only [retry, get?_erase_data]

theorem catchers_erase : catchers (body.erase .state) = catchers body := by
  simp (disch := decide) only [catchers, get?_erase_data]

theorem pass_erase : pass (body.erase .state) = pass body := by
  simp (disch := decide) only [pass, inputOutput_erase, pathField_erase, transition_erase,
    get?_erase_data]

theorem task_erase : task (body.erase .state) = task body := by
  simp (disch := decide) only [task, getString?, getNatural?, inputOutput_erase, pathField_erase,
    retry_erase, catchers_erase, transition_erase, get?_erase_data]

theorem choice_erase : choice (body.erase .state) = choice body := by
  simp (disch := decide) only [choice, getString?, inputOutput_erase, get?_erase_data]

theorem wait_erase : wait (body.erase .state) = wait body := by
  simp (disch := decide) only [wait, waitDuration, getString?, inputOutput_erase,
    transition_erase, get?_erase_data]

theorem succeed_erase : succeed (body.erase .state) = succeed body := by
  simp only [succeed, inputOutput_erase]

theorem fail_erase : fail (body.erase .state) = fail body := by
  simp (disch := decide) only [fail, getString?, get?_erase_data]

theorem map_erase (mode : ProcessorMode) : map mode (body.erase .state) = map mode body := by
  simp (disch := decide) only [map, itemBatcher, getString?, getNatural?, inputOutput_erase,
    pathField_erase, retry_erase, catchers_erase, transition_erase, get?_erase_data]

theorem parallel_erase : parallel (body.erase .state) = parallel body := by
  simp (disch := decide) only [parallel, inputOutput_erase, pathField_erase, retry_erase,
    catchers_erase, transition_erase, get?_erase_data]

theorem processorMode_erase : processorMode (body.erase .scope) = processorMode body := by
  simp (disch := decide) only [processorMode, get?_erase_data]

theorem processorField?_erase :
    processorField? (body.erase .state) = (processorField? body).map (Json.erase .scope) := by
  rw [processorField?_eq, processorField?_eq,
    get?_erase_field (q := .scope) (by decide) (by decide),
    get?_erase_field (q := .scope) (by decide) (by decide)]
  cases body.get? "ItemProcessor" <;> rfl

end

/-! ## The loader -/

/-! The loader without the proofs that it ends. -/

theorem scope_eq (label : ScopeLabel) (v : Json) : scope label v =
    match v.getString? "StartAt" with
    | none => .error (.missingField label "StartAt")
    | some startAt =>
      match v.get? "States" with
      | some (.obj fields) => do
        let states ← states fields
        return { startAt, states, comment := v.getString? "Comment",
                 timeoutSeconds := v.getNatural? "TimeoutSeconds" }
      | _ => .error (.missingField label "States") := by
  rw [scope]
  cases v.getString? "StartAt" with
  | none => rfl
  | some startAt =>
    dsimp only
    split
    · rename_i fields hfields
      rw [hfields]
    · rename_i hother
      split
      · rename_i fields hfields
        exact absurd hfields (hother fields)
      · rfl

theorem stateKind_map (name : String) (body : Json) : stateKind name "Map" body =
    match processorField? body with
    | none => .error (.invalidState name .noProcessor)
    | some processor => do
      let mode ← inState name (processorMode processor)
      let machine ← scope (.processor name) processor
      let spec ← inState name (map mode body)
      return .map spec machine := by
  rw [stateKind]
  split
  · rename_i hnone
    rw [hnone]
  · rename_i processor hprocessor
    rw [hprocessor]

theorem stateKind_parallel (name : String) (body : Json) : stateKind name "Parallel" body =
    match body.get? "Branches" with
    | some (.arr items) => do
      if items.isEmpty then .error (.invalidState name .emptyBranches)
      let machines ← branches name 0 items
      let spec ← inState name (parallel body)
      return .parallel spec machines
    | _ => .error (.invalidState name .noBranches) := by
  rw [stateKind]
  split
  · rename_i items hitems
    rw [hitems]
  · rename_i hother
    split
    · rename_i items hitems
      exact absurd hitems (hother _)
    · rfl

mutual
/-- A scope is read as the same machine whatever languages it and the parts in it name. -/
theorem scope_erase (label : ScopeLabel) (v : Json) :
    scope label (v.erase .scope) = scope label v := by
  rw [scope_eq, scope_eq, get?_erase_field (q := .states) (by decide) (by decide)]
  simp (disch := decide) only [getString?, getNatural?, get?_erase_data]
  cases hv : v.get? "States" with
  | none => rfl
  | some w =>
    cases w with
    | obj fields =>
      have hsize : sizeOf fields < sizeOf v := by
        have := sizeOf_get?_lt hv
        simp only [obj.sizeOf_spec] at this
        omega
      simp only [Option.map_some, erase, states_erase fields]
    | _ => simp only [Option.map_some, erase]
termination_by (sizeOf v, 0)

theorem states_erase (fields : Fields) : states (eraseFields .states fields) = states fields := by
  match fields with
  | [] => rfl
  | (name, body) :: rest =>
    have hkept : Place.states.isLanguage name = false := rfl
    rw [eraseFields, hkept, if_neg (by decide), Place.field, states, states, state_erase name body,
      states_erase rest]
termination_by (sizeOf fields, 0)

theorem state_erase (name : String) (body : Json) :
    state name (body.erase .state) = state name body := by
  have hobject : (body.erase .state).isObject = body.isObject := by
    cases body <;> simp [erase, isObject, asFields?]
  rw [state, state, hobject]
  simp (disch := decide) only [getString?, get?_erase_data, stateKind_erase name _ body]
termination_by (sizeOf body, 2)

theorem stateKind_erase (name typeName : String) (body : Json) :
    stateKind name typeName (body.erase .state) = stateKind name typeName body := by
  by_cases hmap : typeName = "Map"
  · subst hmap
    rw [stateKind_map, stateKind_map, processorField?_erase]
    cases hprocessor : processorField? body with
    | none => rfl
    | some processor =>
      have hsize := sizeOf_processorField_lt hprocessor
      simp only [Option.map_some, processorMode_erase, scope_erase _ processor, map_erase]
  by_cases hparallel : typeName = "Parallel"
  · subst hparallel
    rw [stateKind_parallel, stateKind_parallel,
      get?_erase_field (q := .branches) (by decide) (by decide)]
    cases hitems : body.get? "Branches" with
    | none => rfl
    | some w =>
      cases w with
      | arr items =>
        have hsize : sizeOf items < sizeOf body := by
          have := sizeOf_get?_lt hitems
          simp only [arr.sizeOf_spec] at this
          omega
        have hempty : (eraseItems .branches items).isEmpty = items.isEmpty := by
          cases items <;> rfl
        simp only [Option.map_some, erase, hempty, branches_erase name 0 items, parallel_erase]
      | _ => simp only [Option.map_some, erase]
  -- All other kinds read data alone.
  unfold stateKind
  split
  · rw [pass_erase]
  · rw [task_erase]
  · rw [choice_erase]
  · rw [wait_erase]
  · rw [succeed_erase]
  · rw [fail_erase]
  · exact absurd rfl hmap
  · exact absurd rfl hparallel
  · rfl
termination_by (sizeOf body, 1)

theorem branches_erase (name : String) (index : Nat) (items : List Json) :
    branches name index (eraseItems .branches items) = branches name index items := by
  match items with
  | [] => rfl
  | v :: rest =>
    rw [eraseItems, Place.item, branches, branches, scope_erase _ v, branches_erase name _ rest]
termination_by (sizeOf items, 0)
end

end Load

/-! ## Parts of a document -/

namespace Json

theorem mem_eraseFields {p : Place} {key : String} {w : Json} {fields : Fields}
    (h : (key, w) ∈ eraseFields p fields) : ∃ v, w = erased (p.field key) v := by
  induction fields with
  | nil => cases h
  | cons entry rest ih =>
    obtain ⟨k, v⟩ := entry
    rw [eraseFields] at h
    split at h
    · exact ih h
    · rcases List.mem_cons.mp h with heq | hmem
      · cases heq
        exact ⟨v, rfl⟩
      · exact ih hmem

theorem eraseItems_eq (p : Place) (items : List Json) :
    eraseItems p items = items.map (erased p.item) := by
  induction items with
  | nil => rfl
  | cons v rest ih =>
    rw [eraseItems, ih]
    rfl

theorem state_of_mem_erase {v body : Json} {name : String}
    (h : (name, body) ∈ (v.erase .scope).stateEntries) : ∃ w : Json, body = w.erase .state := by
  rw [stateEntries, get?_erase_field (q := .states) (by decide) (by decide)] at h
  cases hv : v.get? "States" with
  | none =>
    rw [hv] at h
    cases h
  | some w =>
    rw [hv, Option.map_some] at h
    cases w with
    | obj fields =>
      rw [erase] at h
      exact mem_eraseFields (p := .states) h
    | _ => simp [erase, asFields?] at h

theorem scope_of_holds_erase {body scope : Json} {name : String} {label : ScopeLabel}
    (h : (body.erase .state).Holds name label scope) : ∃ v : Json, scope = v.erase .scope := by
  cases h with
  | processor _ hscope =>
    rw [← Load.processorField?_eq, Load.processorField?_erase] at hscope
    obtain ⟨v, -, rfl⟩ := Option.map_eq_some_iff.mp hscope
    exact ⟨v, rfl⟩
  | branch _ hitems hscope =>
    rw [get?_erase_field (q := .branches) (by decide) (by decide)] at hitems
    obtain ⟨w, -, hw⟩ := Option.map_eq_some_iff.mp hitems
    cases w with
    | arr items =>
      rw [erase] at hw
      obtain rfl := Json.arr.inj hw
      rw [eraseItems_eq, List.getElem?_map] at hscope
      obtain ⟨v, -, rfl⟩ := Option.map_eq_some_iff.mp hscope
      exact ⟨v, rfl⟩
    | _ => simp [erase] at hw

/-- The scopes of a document without languages are scopes without languages. -/
theorem scope_of_scopeOf_erase {doc scope : Json} {label l : ScopeLabel}
    (h : (doc.erase .scope).ScopeOf label l scope) : ∃ v : Json, scope = v.erase .scope := by
  induction h with
  | self => exact ⟨doc, rfl⟩
  | held _ hentry hholds ih =>
    obtain ⟨outer, rfl⟩ := ih
    obtain ⟨body, rfl⟩ := state_of_mem_erase hentry
    exact scope_of_holds_erase hholds

theorem withoutLanguages_holds {doc scope : Json} {label : ScopeLabel}
    (h : doc.withoutLanguages.ScopeOf .topLevel label scope) :
    scope.get? languageField = none ∧
      ∀ name body, (name, body) ∈ scope.stateEntries → body.get? languageField = none := by
  obtain ⟨v, rfl⟩ := scope_of_scopeOf_erase h
  refine ⟨by rw [get?_erase]; rfl, fun name body hbody => ?_⟩
  obtain ⟨w, rfl⟩ := state_of_mem_erase hbody
  rw [get?_erase]
  rfl

end Json

namespace Machine

/-- The language that a document names for itself decides whether it is read at all, and languages
below it decide nothing: the document is read as if no scope and no state named one. -/
theorem ofJson_languages (doc : Json) :
    (ofJson doc =
      match doc.getString? "QueryLanguage" with
      | some language =>
        if language = "JSONPath" then ofJson doc.withoutLanguages
        else .error (.unsupportedQueryLanguage language)
      | none => ofJson doc.withoutLanguages) ∧
    (∀ m, ofJson doc = .ok m → ∀ language, doc.getString? "QueryLanguage" = some language →
      language = "JSONPath") ∧
    ∀ label scope, doc.withoutLanguages.ScopeOf .topLevel label scope →
      scope.get? "QueryLanguage" = none ∧
        ∀ name body, (name, body) ∈ scope.stateEntries → body.get? "QueryLanguage" = none := by
  have hload : ofJson doc.withoutLanguages = ofJson.load doc := by
    have hnone : doc.withoutLanguages.getString? "QueryLanguage" = none := by
      rw [Json.getString?, Json.withoutLanguages, Json.get?_erase]
      rfl
    rw [ofJson, hnone]
    dsimp only
    rw [ofJson.load, ofJson.load, Json.withoutLanguages, Load.scope_erase]
  have hread : ofJson doc =
      match doc.getString? "QueryLanguage" with
      | some language =>
        if language = "JSONPath" then ofJson doc.withoutLanguages
        else .error (.unsupportedQueryLanguage language)
      | none => ofJson doc.withoutLanguages := by
    rw [hload]
    rfl
  refine ⟨hread, ?_, fun label scope => Json.withoutLanguages_holds⟩
  intro m hm language hlanguage
  by_contra hother
  rw [hread, hlanguage] at hm
  dsimp only at hm
  rw [if_neg hother] at hm
  cases hm

/-- A Map state whose scope and its one state are written in another language. -/
def foreignInside : Json :=
  .obj [("StartAt", .str "Each"), ("States", .obj [
    ("Each", .obj [("End", .bool true), ("ItemProcessor", .obj [("QueryLanguage", .str "JSONata"),
        ("StartAt", .str "Inner"), ("States", .obj [
          ("Inner", .obj [("End", .bool true), ("QueryLanguage", .str "JSONata"),
            ("Type", .str "Pass")])])]),
      ("Type", .str "Map")])])]

/-- Languages below the document itself are not refused. -/
theorem foreignInside_accepted :
    (∃ m, ofJson foreignInside = .ok m) ∧
    ∃ label scope, foreignInside.ScopeOf .topLevel label scope ∧
      scope.getString? "QueryLanguage" = some "JSONata" ∧
      ∃ name body, (name, body) ∈ scope.stateEntries ∧
        body.getString? "QueryLanguage" = some "JSONata" := by
  constructor
  · have hok : (ofJson foreignInside).toBool = true := by cbv
    cases hresult : ofJson foreignInside with
    | error e =>
      rw [hresult] at hok
      cases hok
    | ok m => exact ⟨m, rfl⟩
  · refine ⟨_, _, .held .self (List.mem_singleton.mpr rfl) (.processor rfl rfl), rfl, _, _,
      List.mem_singleton.mpr rfl, rfl⟩

end Machine
end StateCheck
