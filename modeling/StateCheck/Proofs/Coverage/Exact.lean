import StateCheck.Proofs.Coverage.Branch
import StateCheck.Proofs.Coverage.Declared
import StateCheck.Proofs.Coverage.Records
import StateCheck.Proofs.Machine.Distinct
/-!
Coverage of executions is exact.

After executions of a loaded machine the report tells exactly which states were visited and which
branches were taken at the top level, and for each container how often it was executed and which of
its states were visited (`CoverageTracker.report_exact`).
-/
namespace StateCheck
set_option autoImplicit false

/-! ## Metrics -/

/-- The metric tells which of the known names are covered. -/
structure CoverageMetric.Exactly (metric : CoverageMetric) (knownNames coveredNames : Set String) :
    Prop where
  subset : coveredNames ⊆ knownNames
  total : metric.total = knownNames.ncard
  covered : metric.covered = coveredNames.ncard
  uncovered : ∀ x, x ∈ metric.uncovered ↔ x ∈ knownNames ∧ x ∉ coveredNames

theorem CoverageMetric.ofSets_exactly {total : Nat} {known covered : NameSet}
    {knownNames coveredNames : Set String} (htotal : total = known.size)
    (hknown : ∀ x, x ∈ known ↔ x ∈ knownNames) (hcovered : ∀ x, x ∈ covered ↔ x ∈ coveredNames)
    (hsubset : coveredNames ⊆ knownNames) :
    (ofSets total known covered).Exactly knownNames coveredNames := by
  obtain rfl : {x | x ∈ known} = knownNames := Set.ext hknown
  obtain rfl : {x | x ∈ covered} = coveredNames := Set.ext hcovered
  refine ⟨hsubset, ?_, ?_, fun x => NameSet.mem_diff⟩
  · rw [NameSet.ncard_members]
    exact htotal
  · rw [NameSet.ncard_members]
    rfl

namespace Accumulator

variable {a : Accumulator} {scopes : List Machine} {paths : List (List String)}

theorem Declares.states_exactly (h : a.Declares scopes)
    (hpaths : ∀ path ∈ paths, ∃ scope ∈ scopes, ∀ x ∈ path, x ∈ scope.stateNames) :
    (a.observeAll paths).states.Exactly {x | ∃ scope ∈ scopes, x ∈ scope.stateNames}
      {x | ∃ path ∈ paths, x ∈ path} := by
  have hsubset : ∀ x, (∃ path ∈ paths, x ∈ path) → ∃ scope ∈ scopes, x ∈ scope.stateNames := by
    rintro x ⟨path, hpath, hx⟩
    obtain ⟨scope, hscope, hnames⟩ := hpaths path hpath
    exact ⟨scope, hscope, hnames x hx⟩
  have hknown : ∀ x, x ∈ (a.observeAll paths).knownStates ↔
      x ∈ {x | ∃ scope ∈ scopes, x ∈ scope.stateNames} := by
    rw [observeAll_eq]
    exact h.states
  refine CoverageMetric.ofSets_exactly ?_ hknown (fun x => ?_) hsubset
  · rw [observeAll_eq]
    exact h.totalStates
  · rw [mem_coveredStates_observeAll, h.states]
    constructor
    · rintro (⟨-, hx⟩ | hx)
      · exact hx
      · exact absurd hx (h.coveredStates x)
    · exact fun hx => .inl ⟨hsubset x hx, hx⟩

theorem Declares.mem_knownBranches (h : a.Declares scopes) {x : String} :
    x ∈ a.knownBranches ↔ ∃ scope ∈ scopes, ∃ c t, scope.Branch c t ∧ x = branchId c t := by
  rw [h.branches]
  simp only [mem_branchesOf]
  constructor
  · rintro ⟨scope, hscope, st, hst, t, ht, hx⟩
    exact ⟨scope, hscope, st.name, t, ⟨st, hst, rfl, ht⟩, hx⟩
  · rintro ⟨scope, hscope, c, t, ⟨st, hst, rfl, ht⟩, hx⟩
    exact ⟨scope, hscope, st, hst, t, ht, hx⟩

theorem Declares.mem_coveredBranches (h : a.Declares scopes) {x : String} :
    x ∈ (a.observeAll paths).coveredBranches ↔
      (∃ scope ∈ scopes, ∃ c t, scope.Branch c t ∧ x = branchId c t) ∧
        ∃ path ∈ paths, ∃ c t, [c, t] <:+: path ∧ x = branchId c t := by
  rw [mem_coveredBranches_observeAll, h.mem_knownBranches]
  simp only [mem_movesOf, h.coveredBranches, or_false]

theorem Declares.branches_exactly (h : a.Declares scopes) {taken : Set String}
    (htaken : ∀ x, x ∈ (a.observeAll paths).coveredBranches ↔ x ∈ taken) :
    (a.observeAll paths).branches.Exactly
      {x | ∃ scope ∈ scopes, ∃ c t, scope.Branch c t ∧ x = branchId c t} taken := by
  refine CoverageMetric.ofSets_exactly ?_ (fun x => ?_) htaken fun x hx => ?_
  · rw [observeAll_eq]
    exact h.totalBranches
  · rw [observeAll_eq]
    exact h.mem_knownBranches
  · exact (h.mem_coveredBranches.mp ((htaken x).mpr hx)).1

end Accumulator

/-! ## Branches at the top level -/

namespace Machine

variable {m : Machine}

theorem mem_stateNames_iff {name : String} : name ∈ m.stateNames ↔ m.contains name = true := by
  simp [stateNames, contains]

theorem arrowFree_of_contains (hnames : ∀ st ∈ m.states, ArrowFree st.name) {name : String}
    (h : m.contains name = true) : ArrowFree name := by
  obtain ⟨st, hst⟩ := contains_iff_state?.mp h
  rw [← name_of_state? hst]
  exact hnames st (mem_of_state? hst)

theorem Branch.arrowFree {choice target : String} (h : m.Branch choice target)
    (hnames : ∀ st ∈ m.states, ArrowFree st.name) : ArrowFree choice := by
  obtain ⟨st, hst, rfl, -⟩ := h
  exact hnames st hst

theorem Branch.exists_choice (hm : m.Distinct) {choice target : String}
    (h : m.Branch choice target) :
    ∃ comment spec, m.state? choice = some ⟨choice, comment, .choice spec⟩ := by
  obtain ⟨⟨name, comment, kind⟩, hst, rfl, htarget⟩ := h
  obtain ⟨spec, rfl⟩ := StateKind.exists_choice htarget
  exact ⟨comment, spec, hm.state?_name hst⟩

theorem Edge.branch {choice target : String} {comment : Option String} {spec : ChoiceSpec}
    (h : m.Edge choice target)
    (hst : m.state? choice = some ⟨choice, comment, .choice spec⟩) : m.Branch choice target := by
  obtain ⟨st, hst', htarget⟩ := h
  obtain rfl : st = ⟨choice, comment, .choice spec⟩ := Option.some.inj (hst'.symm.trans hst)
  rw [State.successors_choice] at htarget
  exact ⟨_, mem_of_state? hst, rfl, htarget⟩

theorem IsWalk.edge {maxSteps : Nat} {path : List String} (h : m.IsWalk maxSteps path)
    {a b : String} (hpair : [a, b] <:+: path) : m.Edge a b := by
  have hchain := List.IsChain.infix h.edges hpair
  exact List.isChain_pair.mp hchain

theorem Took.branch (hm : m.Closed) {x : Setup} {choice target : String}
    (h : m.Took x choice target) : m.Branch choice target := by
  obtain ⟨hpair, comment, spec, hst⟩ := took_iff.mp h
  exact ((traceOf_isWalk hm).edge hpair).branch hst

/-- A move of a path that has the name of a branch is taken by the Choice state of the branch. -/
theorem took_of_moves (hm : m.Closed) (hdistinct : m.Distinct)
    (hnames : ∀ st ∈ m.states, ArrowFree st.name) {x : Setup} {choice target a b : String}
    (hbranch : m.Branch choice target) (hpair : [a, b] <:+: (m.traceOf x).executionPath)
    (hid : branchId choice target = branchId a b) : m.Took x choice target := by
  have ha : m.contains a = true :=
    (traceOf_isWalk hm).contains a (hpair.subset (List.mem_cons_self ..))
  obtain ⟨rfl, rfl⟩ :=
    (branchId_inj (hbranch.arrowFree hnames) (arrowFree_of_contains hnames ha)).mp hid
  exact took_iff.mpr ⟨hpair, hbranch.exists_choice hdistinct⟩

end Machine

/-! ## Reports -/

namespace CoverageTracker

theorem coveredBranches_ofTraces {m : Machine} (hm : m.Closed) (hdistinct : m.Distinct)
    (hnames : ∀ st ∈ m.states, ArrowFree st.name) (setups : List Setup) (x : String) :
    x ∈ (ofTraces m (setups.map m.traceOf)).top.coveredBranches ↔
      ∃ c t, (∃ setup ∈ setups, m.Took setup c t) ∧ x = branchId c t := by
  rw [ofTraces_eq, (start_declares m).1.mem_coveredBranches]
  simp only [List.mem_singleton, exists_eq_left, List.map_map, List.mem_map, Function.comp_apply,
    exists_exists_and_eq_and]
  constructor
  · rintro ⟨⟨c, t, hbranch, rfl⟩, setup, hsetup, a, b, hpair, hid⟩
    exact ⟨c, t, ⟨setup, hsetup, m.took_of_moves hm hdistinct hnames hbranch hpair hid⟩, rfl⟩
  · rintro ⟨c, t, ⟨setup, hsetup, htook⟩, rfl⟩
    exact ⟨⟨c, t, htook.branch hm, rfl⟩, setup, hsetup, c, t, (Machine.took_iff.mp htook).1, rfl⟩

variable {m : Machine}

theorem record_paths (hm : m.Closed) {setups : List Setup} {trace : ExecutionTrace}
    (htrace : trace ∈ setups.map m.traceOf) {record : ContainerRecord}
    (hrecord : record ∈ trace.records) :
    (∃ c ∈ m.containers, c.name = record.1) ∧
      ∀ path ∈ record.2, ∃ scope ∈ scopesNamed record.1 m.containers,
        ∀ x ∈ path, x ∈ scope.stateNames := by
  obtain ⟨setup, -, rfl⟩ := List.mem_map.mp htrace
  obtain ⟨c, hc, hname, hruns⟩ := m.exists_container_of_record hm hrecord
  refine ⟨⟨c, hc, hname⟩, fun path hpath => ?_⟩
  obtain ⟨i, hi⟩ := List.getElem?_of_mem hpath
  obtain ⟨scope, hscope, hwalk⟩ := hruns i path hi
  exact ⟨scope, mem_scopesNamed.mpr ⟨c, hc, hname, Container.mem_of_scopeAt? hscope⟩,
    fun x hx => Machine.mem_stateNames_iff.mpr (hwalk.contains x hx)⟩

theorem nested_exactly (hm : m.Closed) {setups : List Setup} {entry : String × ContainerCoverage}
    (h : entry ∈ (ofTraces m (setups.map m.traceOf)).nested) :
    let traces := setups.map m.traceOf
    entry.2.executions.toNat = (traces.map fun t =>
        (t.mapExecutionsOf entry.1).length +
          (t.parallelExecutionsOf entry.1).length).sum % 2 ^ 64 ∧
      entry.2.coverage.states.Exactly
        {x | ∃ scope ∈ scopesNamed entry.1 m.containers, x ∈ scope.stateNames}
        {x | ∃ trace ∈ traces, ∃ record ∈ trace.records, record.1 = entry.1 ∧
          ∃ path ∈ record.2, x ∈ path} := by
  intro traces
  have hdeclares := (start_declares m).2
  rw [ofTraces_eq] at h
  obtain ⟨⟨name, old⟩, hold, rfl⟩ := List.mem_map.mp h
  have hpaths : ∀ path ∈ (recordsOf name (traces.flatMap (·.records))).flatten,
      ∃ scope ∈ scopesNamed name m.containers, ∀ x ∈ path, x ∈ scope.stateNames := by
    intro path hpath
    obtain ⟨trace, htrace, record, hrecord, rfl, hmem⟩ := mem_flatten_recordsOf.mp hpath
    exact (record_paths hm htrace hrecord).2 path hmem
  have hcovered : {x | ∃ path ∈ (recordsOf name (traces.flatMap (·.records))).flatten, x ∈ path} =
      {x | ∃ trace ∈ traces, ∃ record ∈ trace.records, record.1 = name ∧
        ∃ path ∈ record.2, x ∈ path} := by
    ext x
    simp only [mem_flatten_recordsOf, Set.mem_ofPred_eq]
    constructor
    · rintro ⟨path, ⟨trace, htrace, record, hrecord, hname, hpath⟩, hx⟩
      exact ⟨trace, htrace, record, hrecord, hname, path, hpath, hx⟩
    · rintro ⟨trace, htrace, record, hrecord, hname, path, hpath, hx⟩
      exact ⟨path, ⟨trace, htrace, record, hrecord, hname, hpath⟩, hx⟩
  refine ⟨?_, ?_⟩
  · dsimp only [ContainerCoverage.observeAll]
    rw [hdeclares.executions _ hold, UInt64.zero_add, UInt64.toNat_ofNat', length_recordsOf]
  · rw [← hcovered]
    exact (hdeclares.coverage _ hold).states_exactly hpaths

theorem top_states_exactly (hm : m.Closed) (setups : List Setup) :
    (ofTraces m (setups.map m.traceOf)).top.states.Exactly {x | x ∈ m.stateNames}
      {x | ∃ trace ∈ setups.map m.traceOf, x ∈ trace.executionPath} := by
  have hpaths : ∀ path ∈ (setups.map m.traceOf).map (·.executionPath),
      ∃ scope ∈ [m], ∀ x ∈ path, x ∈ scope.stateNames := by
    intro path hpath
    simp only [List.map_map, List.mem_map, Function.comp_apply] at hpath
    obtain ⟨setup, -, rfl⟩ := hpath
    exact ⟨m, List.mem_singleton_self m,
      fun x hx => Machine.mem_stateNames_iff.mpr ((m.traceOf_isWalk hm).contains x hx)⟩
  have hexact := (start_declares m).1.states_exactly hpaths
  rw [ofTraces_eq]
  simpa using hexact

theorem top_branches_exactly (hm : m.Closed) (hdistinct : m.Distinct)
    (hnames : ∀ st ∈ m.states, ArrowFree st.name) (setups : List Setup) :
    (ofTraces m (setups.map m.traceOf)).top.branches.Exactly
      {x | ∃ c t, m.Branch c t ∧ x = branchId c t}
      {x | ∃ c t, (∃ setup ∈ setups, m.Took setup c t) ∧ x = branchId c t} := by
  let taken : Set String := {x | ∃ c t, (∃ setup ∈ setups, m.Took setup c t) ∧ x = branchId c t}
  have hcovered : ∀ x, x ∈ (ofTraces m (setups.map m.traceOf)).top.coveredBranches ↔ x ∈ taken :=
    coveredBranches_ofTraces hm hdistinct hnames setups
  rw [ofTraces_eq] at hcovered ⊢
  have hexact := (start_declares m).1.branches_exactly hcovered
  simpa only [List.mem_singleton, exists_eq_left] using hexact

theorem names_ofTraces (traces : List ExecutionTrace) :
    (ofTraces m traces).nested.names = (start m).nested.names := by
  rw [ofTraces_eq]
  simp [ContainerTable.names, ContainerTable.observeAll]

theorem report_nested_none {traces : List ExecutionTrace} :
    (ofTraces m traces).report.nested = none ↔ ∀ trace ∈ traces, trace.records = [] := by
  rw [ofTraces_eq, report]
  simp

theorem report_nested_some {t : CoverageTracker} {table : List (String × NestedCoverage)}
    (h : t.report.nested = some table) :
    table = t.nested.map fun (name, c) =>
      (name, ⟨c.kind, c.executions, c.coverage.states, c.coverage.branches⟩) := by
  rw [report] at h
  dsimp only at h
  split at h
  · exact (Option.some.inj h).symm
  · cases h

/-- After executions of a loaded machine, in whose state names there is no arrow, the report tells
what the traces hold. A branch is covered exactly when a Choice state took it, no execution of a
container is passed over, and each container has the states of its records and as many executions
as there are records, counted in 64 bits. -/
theorem report_exact {v : Json} (hv : v.Sorted) (hm : Machine.ofJson v = .ok m)
    (hnames : ∀ st ∈ m.everyState, ArrowFree st.name) (setups : List Setup) :
    let traces := setups.map m.traceOf
    let tracker := ofTraces m traces
    let report := tracker.report
    report.states.Exactly {x | x ∈ m.stateNames} {x | ∃ trace ∈ traces, x ∈ trace.executionPath} ∧
      report.branches.Exactly {x | ∃ c t, m.Branch c t ∧ x = branchId c t}
        {x | ∃ c t, (∃ setup ∈ setups, m.Took setup c t) ∧ x = branchId c t} ∧
      (∀ c t, m.Branch c t →
        (branchId c t ∉ report.branches.uncovered ↔ ∃ setup ∈ setups, m.Took setup c t)) ∧
      (∀ trace ∈ traces, ∀ record ∈ trace.records, record.1 ∈ tracker.nested.names) ∧
      (report.nested = none ↔ ∀ trace ∈ traces, trace.records = []) ∧
      ∀ table, report.nested = some table →
        (table.map (·.1)).Nodup ∧
        (∀ name, name ∈ table.map (·.1) ↔ ∃ c ∈ m.containers, c.name = name) ∧
        ∀ entry ∈ table,
          entry.2.executions.toNat = (traces.map fun t =>
            (t.mapExecutionsOf entry.1).length +
              (t.parallelExecutionsOf entry.1).length).sum % 2 ^ 64 ∧
          entry.2.states.Exactly
            {x | ∃ scope ∈ scopesNamed entry.1 m.containers, x ∈ scope.stateNames}
            {x | ∃ trace ∈ traces, ∃ record ∈ trace.records, record.1 = entry.1 ∧
              ∃ path ∈ record.2, x ∈ path} := by
  intro traces tracker report
  have hclosed := Machine.closed_of_ofJson hm
  have harrow : ∀ st ∈ m.states, ArrowFree st.name :=
    fun st hst => hnames st (Machine.mem_everyState hst)
  have hbranches := top_branches_exactly hclosed (Machine.distinct_of_ofJson hv hm) harrow setups
  refine ⟨top_states_exactly hclosed setups, hbranches, fun c t hbranch => ?_,
    fun trace htrace record hrecord => ?_, report_nested_none, fun table htable => ?_⟩
  · have hknown : branchId c t ∈ {x | ∃ c t, m.Branch c t ∧ x = branchId c t} :=
      ⟨c, t, hbranch, rfl⟩
    have hiff := hbranches.uncovered (branchId c t)
    rw [show report.branches = tracker.top.branches from rfl, hiff]
    simp only [hknown, true_and, not_not]
    -- A branch that was taken under the same name is the same branch.
    constructor
    · rintro ⟨c', t', ⟨setup, hsetup, htook⟩, hid⟩
      obtain ⟨rfl, rfl⟩ := (branchId_inj (hbranch.arrowFree harrow)
        ((htook.branch hclosed).arrowFree harrow)).mp hid
      exact ⟨setup, hsetup, htook⟩
    · exact fun htook => ⟨c, t, htook, rfl⟩
  · rw [names_ofTraces, (start_declares m).2.mem_names]
    exact (record_paths hclosed htrace hrecord).1
  · obtain rfl := report_nested_some htable
    have hdeclares := (start_declares m).2
    have hkeys : (tracker.nested.map fun (name, c) => (name,
        (⟨c.kind, c.executions, c.coverage.states, c.coverage.branches⟩ : NestedCoverage))).map
          (·.1) = (start m).nested.names := by
      rw [List.map_map, ← names_ofTraces traces]
      rfl
    refine ⟨?_, fun name => ?_, fun entry hentry => ?_⟩
    · rw [hkeys]
      exact NameSet.nodup ⟨_, hdeclares.sorted⟩
    · rw [hkeys]
      exact hdeclares.mem_names name
    · obtain ⟨⟨name, c⟩, hc, rfl⟩ := List.mem_map.mp hentry
      exact nested_exactly hclosed hc

/-- A choice whether to go through the items one by one. -/
def choosing : Json :=
  .obj [
    ("StartAt", .str "Ask"),
    ("States", .obj [
      ("Ask", .obj [
        ("Choices", .arr [.obj [
          ("IsPresent", .bool true), ("Next", .str "Each"), ("Variable", .str "$.items")]]),
        ("Default", .str "Done"), ("Type", .str "Choice")]),
      ("Done", .obj [("Type", .str "Succeed")]),
      ("Each", .obj [
        ("ItemProcessor", .obj [
          ("StartAt", .str "Keep"),
          ("States", .obj [
            ("Keep", .obj [("End", .bool true), ("Type", .str "Pass")])])]),
        ("ItemsPath", .str "$.items"), ("Next", .str "Done"), ("Type", .str "Map")])])]

/-- The machine that is read from the document. -/
def choosingMachine : Machine :=
  ⟨none, "Ask", none, [
    ⟨"Ask", none, .choice
      ⟨{}, [⟨.test "$.items" .isPresent (.literal (.bool true)), "Each"⟩], some "Done"⟩⟩,
    ⟨"Done", none, .succeed ⟨{}⟩⟩,
    ⟨"Each", none, .map
        ⟨{}, .whole, none, some "$.items", none, .inline, none, none, none, none, [], [],
          .next "Done"⟩
      ⟨none, "Keep", none, [⟨"Keep", none, .pass ⟨{}, .whole, none, none, .finish⟩⟩]⟩⟩]⟩

theorem ofJson_choosing : Machine.ofJson choosing = .ok choosingMachine := by cbv

/-- What is executed goes through two items. -/
def itemsGiven : Setup where
  input := .obj [("items", .arr [.null, .null])]
  engine := { config := {} }
  options := { executionName := some "run" }

theorem report_exact_choosing : choosing.Sorted ∧
    ∃ m, Machine.ofJson choosing = .ok m ∧ (∀ st ∈ m.everyState, ArrowFree st.name) ∧
      let report := (ofTraces m [m.traceOf itemsGiven]).report
      m.Branch "Ask" "Each" ∧ branchId "Ask" "Each" ∉ report.branches.uncovered ∧
        m.Branch "Ask" "Done" ∧ branchId "Ask" "Done" ∈ report.branches.uncovered ∧
        ∀ table, report.nested = some table → ∀ entry ∈ table,
          entry.1 = "Each" → entry.2.executions.toNat = 1 := by
  have hsorted : choosing.Sorted := by
    simp only [choosing, Json.Sorted, Json.SortedFields, Json.SortedItems]
    decide
  have hnames : ∀ st ∈ choosingMachine.everyState, ArrowFree st.name := by decide
  obtain ⟨hpath, hmaps, hparallels⟩ :
      (choosingMachine.traceOf itemsGiven).executionPath = ["Ask", "Each", "Done"] ∧
      ((choosingMachine.traceOf itemsGiven).mapExecutionsOf "Each").length = 1 ∧
      ((choosingMachine.traceOf itemsGiven).parallelExecutionsOf "Each").length = 0 := by
    decide +kernel
  have hask : choosingMachine.state? "Ask" = some ⟨"Ask", none, .choice
      ⟨{}, [⟨.test "$.items" .isPresent (.literal (.bool true)), "Each"⟩], some "Done"⟩⟩ := rfl
  have hbranch : ∀ t ∈ ["Each", "Done"], choosingMachine.Branch "Ask" t := fun t ht =>
    ⟨_, Machine.mem_of_state? hask, rfl, ht⟩
  have htook : ∀ t, choosingMachine.Took itemsGiven "Ask" t ↔
      ["Ask", t] <:+: ["Ask", "Each", "Done"] := by
    intro t
    rw [Machine.took_iff, hpath]
    exact ⟨And.left, fun hpair => ⟨hpair, none, _, hask⟩⟩
  obtain ⟨-, -, huncovered, -, -, hnested⟩ :=
    report_exact hsorted ofJson_choosing hnames [itemsGiven]
  simp only [List.mem_singleton, exists_eq_left] at huncovered
  refine ⟨hsorted, choosingMachine, ofJson_choosing, hnames, hbranch _ (by decide), ?_,
    hbranch _ (by decide), ?_, ?_⟩
  · exact (huncovered _ _ (hbranch _ (by decide))).mpr ((htook _).mpr (by decide))
  · exact not_not.mp ((huncovered _ _ (hbranch _ (by decide))).not.mpr
      ((htook _).not.mpr (by decide)))
  · intro table htable entry hentry hname
    obtain ⟨hexecutions, -⟩ := (hnested table htable).2.2 entry hentry
    simpa [hname, hmaps, hparallels] using hexecutions

end CoverageTracker
end StateCheck
