import StateCheck.Proofs.Coverage.Exact
import StateCheck.Proofs.Machine.References
/-!
Which scope of a container its covered branches belong to.

A container has one set of branches for all its scopes. A branch in it counts as covered when a path
through any of the scopes makes the move, also where the state that moves is no Choice state and
only shares its name with one of another scope. What a Choice state took is always covered
(`CoverageTracker.covered_of_tookInside`); that nothing else is needs scopes that agree on which
moves are branches (`BranchesAgree`), as those of a Map state do
(`CoverageTracker.map_branches_exactly`).
-/
namespace StateCheck
set_option autoImplicit false

/-! ## Containers by depth -/

theorem exists_of_mem_containersOfStates {states : List State} {c : Container}
    (h : c ∈ containersOfStates states) :
    ∃ st ∈ states, st.container? = some c ∨ c ∈ st.kind.innerContainers := by
  induction states with
  | nil => cases h
  | cons first rest ih =>
    obtain ⟨name, comment, kind⟩ := first
    rw [containersOfStates, List.mem_append, List.mem_append, Option.mem_toList] at h
    rcases h with (h | h) | h
    · exact ⟨_, List.mem_cons_self .., .inl h⟩
    · exact ⟨_, List.mem_cons_self .., .inr h⟩
    · obtain ⟨st, hst, hc⟩ := ih h
      exact ⟨st, List.mem_cons_of_mem _ hst, hc⟩

theorem exists_of_mem_containersOfMachines {machines : List Machine} {c : Container}
    (h : c ∈ containersOfMachines machines) : ∃ inner ∈ machines, c ∈ inner.containers := by
  induction machines with
  | nil => cases h
  | cons first rest ih =>
    rw [containersOfMachines, List.mem_append] at h
    rcases h with h | h
    · exact ⟨first, List.mem_cons_self .., h⟩
    · obtain ⟨inner, hinner, hc⟩ := ih h
      exact ⟨inner, List.mem_cons_of_mem _ hinner, hc⟩

theorem exists_of_mem_innerContainers {kind : StateKind} {c : Container}
    (h : c ∈ kind.innerContainers) : ∃ inner ∈ kind.scopes, c ∈ inner.containers := by
  cases kind with
  | map spec processor => exact ⟨processor, List.mem_singleton_self _, h⟩
  | parallel spec branches =>
    rw [StateKind.innerContainers] at h
    exact exists_of_mem_containersOfMachines h
  | _ => cases h

theorem State.scopes_of_container? {st : State} {c : Container} (h : st.container? = some c) :
    c.scopes = st.kind.scopes := by
  obtain ⟨name, comment, kind⟩ := st
  cases kind with
  | map spec processor => cases h; rfl
  | parallel spec branches => cases h; rfl
  | _ => cases h

theorem Machine.exists_of_mem_containers {m : Machine} {c : Container} (h : c ∈ m.containers) :
    ∃ st ∈ m.states, st.container? = some c ∨
      ∃ inner ∈ st.kind.scopes, c ∈ inner.containers := by
  rw [m.containers_eq] at h
  obtain ⟨st, hst, hc | hc⟩ := exists_of_mem_containersOfStates h
  · exact ⟨st, hst, .inl hc⟩
  · exact ⟨st, hst, .inr (exists_of_mem_innerContainers hc)⟩

/-- What goes over from a machine to the machines that its states own, goes over to the scopes of
all its containers. -/
theorem Machine.of_container {P : Machine → Prop}
    (hinner : ∀ m, P m → ∀ st ∈ m.states, ∀ inner ∈ st.kind.scopes, P inner) {m scope : Machine}
    (hm : P m) {c : Container} (hc : c ∈ m.containers) (hscope : scope ∈ c.scopes) : P scope := by
  induction m using Machine.induction with
  | step m ih =>
    obtain ⟨st, hst, h | ⟨inner, hmem, h⟩⟩ := Machine.exists_of_mem_containers hc
    · rw [State.scopes_of_container? h] at hscope
      exact hinner m hm st hst scope hscope
    · exact ih st hst inner hmem (hinner m hm st hst inner hmem) h

theorem Machine.everyState_subset_of_container {m scope : Machine} {c : Container}
    (hc : c ∈ m.containers) (hscope : scope ∈ c.scopes) : scope.everyState ⊆ m.everyState :=
  Machine.of_container (P := fun s => s.everyState ⊆ m.everyState)
    (fun _ h _ hst _ hinner => List.Subset.trans (Machine.everyState_subset hst hinner) h)
    (List.Subset.refl _) hc hscope

theorem Machine.Distinct.of_container {m scope : Machine} {c : Container} (hm : m.Distinct)
    (hc : c ∈ m.containers) (hscope : scope ∈ c.scopes) : scope.Distinct :=
  Machine.of_container (fun m h => ((Machine.distinct_iff m).mp h).2) hm hc hscope

/-- Where no two containers share a name, the scopes of a name are those of the one container. -/
theorem scopesNamed_of_nodup {containers : List Container}
    (hnames : (containers.map (·.name)).Nodup) {c : Container} (hc : c ∈ containers) :
    scopesNamed c.name containers = c.scopes := by
  obtain ⟨before, after, rfl⟩ := List.append_of_mem hc
  rw [List.map_append, List.map_cons, List.nodup_middle, List.nodup_cons,
    ← List.map_append] at hnames
  have hothers : ∀ other ∈ before ++ after, other.name ≠ c.name :=
    fun other hother hname => hnames.1 (hname ▸ List.mem_map_of_mem hother)
  have hbefore : before.filter (·.name == c.name) = [] := by
    simpa using fun other h => hothers other (List.mem_append_left _ h)
  have hafter : after.filter (·.name == c.name) = [] := by
    simpa using fun other h => hothers other (List.mem_append_right _ h)
  rw [scopesNamed, List.filter_append, List.filter_cons_of_pos (by simp), hbefore, hafter]
  simp

theorem Machine.scopes_of_map {m : Machine} {c : Container} (hc : c ∈ m.containers)
    (hkind : c.kind = .map) : ∃ processor, c.scopes = [processor] := by
  induction m using Machine.induction with
  | step m ih =>
    obtain ⟨⟨name, comment, kind⟩, hst, h | ⟨inner, hinner, h⟩⟩ :=
      Machine.exists_of_mem_containers hc
    · cases kind with
      | map spec processor =>
        cases h
        exact ⟨processor, rfl⟩
      | parallel spec branches =>
        cases h
        cases hkind
      | _ => cases h
    · exact ih _ hst inner hinner h

/-! ## Branches inside containers -/

/-- In the execution a Choice state in a scope of a container of the name moved to the target. -/
def Machine.TookInside (m : Machine) (x : Setup) (name choice target : String) : Prop :=
  ∃ record ∈ (m.traceOf x).records, record.1 = name ∧
    ∃ c ∈ m.containers, c.name = name ∧ c.Runs x.options.maxSteps record.2 ∧
      ∃ (i : Nat) (path : List String) (scope : Machine),
        record.2[i]? = some path ∧ c.scopeAt? i = some scope ∧ [choice, target] <:+: path ∧
        ∃ comment spec, scope.state? choice = some ⟨choice, comment, .choice spec⟩

/-- A move that is a branch of one of the scopes is a branch of each of them that may make it. -/
def BranchesAgree (scopes : List Machine) : Prop :=
  ∀ scope ∈ scopes, ∀ choice target, scope.Branch choice target →
    ∀ other ∈ scopes, other.Edge choice target → other.Branch choice target

/-- Where no two containers share a name, the branches of a Map state agree. -/
theorem branchesAgree_map {m : Machine} (hnames : (m.containers.map (·.name)).Nodup)
    {c : Container} (hc : c ∈ m.containers) (hkind : c.kind = .map) :
    BranchesAgree (scopesNamed c.name m.containers) := by
  obtain ⟨processor, hscopes⟩ := Machine.scopes_of_map hc hkind
  rw [scopesNamed_of_nodup hnames hc, hscopes]
  intro scope hscope choice target hbranch other hother _
  rwa [List.mem_singleton.mp hother, ← List.mem_singleton.mp hscope]

namespace CoverageTracker

variable {m : Machine} {setups : List Setup} {entry : String × ContainerCoverage}

theorem mem_nested_coveredBranches
    (h : entry ∈ (ofTraces m (setups.map m.traceOf)).nested) {x : String} :
    x ∈ entry.2.coverage.coveredBranches ↔
      (∃ scope ∈ scopesNamed entry.1 m.containers, ∃ c t, scope.Branch c t ∧ x = branchId c t) ∧
        ∃ setup ∈ setups, ∃ record ∈ (m.traceOf setup).records, record.1 = entry.1 ∧
          ∃ path ∈ record.2, ∃ a b, [a, b] <:+: path ∧ x = branchId a b := by
  rw [ofTraces_eq] at h
  obtain ⟨⟨name, old⟩, hold, rfl⟩ := List.mem_map.mp h
  rw [ContainerCoverage.observeAll, ((start_declares m).2.coverage _ hold).mem_coveredBranches]
  refine and_congr_right fun _ => ⟨?_, ?_⟩
  · rintro ⟨path, hpath, hmove⟩
    obtain ⟨trace, htrace, record, hrecord, hname, hpath⟩ := mem_flatten_recordsOf.mp hpath
    obtain ⟨setup, hsetup, rfl⟩ := List.mem_map.mp htrace
    exact ⟨setup, hsetup, record, hrecord, hname, path, hpath, hmove⟩
  · rintro ⟨setup, hsetup, record, hrecord, hname, path, hpath, hmove⟩
    exact ⟨path, mem_flatten_recordsOf.mpr
      ⟨_, List.mem_map_of_mem hsetup, record, hrecord, hname, hpath⟩, hmove⟩

theorem covered_of_tookInside (h : entry ∈ (ofTraces m (setups.map m.traceOf)).nested)
    {setup : Setup} (hsetup : setup ∈ setups) {choice target : String}
    (htook : m.TookInside setup entry.1 choice target) :
    branchId choice target ∈ entry.2.coverage.coveredBranches := by
  obtain ⟨record, hrecord, hname, c, hc, hcname, hruns, i, path, scope, hpath, hscope, hpair,
    comment, spec, hst⟩ := htook
  obtain ⟨scope', hscope', hwalk⟩ := hruns i path hpath
  obtain rfl : scope' = scope := Option.some.inj (hscope'.symm.trans hscope)
  have hmem : scope' ∈ scopesNamed entry.1 m.containers :=
    mem_scopesNamed.mpr ⟨c, hc, hcname, Container.mem_of_scopeAt? hscope⟩
  exact (mem_nested_coveredBranches h).mpr
    ⟨⟨scope', hmem, choice, target, (hwalk.edge hpair).branch hst, rfl⟩,
      setup, hsetup, record, hrecord, hname, path, List.mem_of_getElem? hpath,
      choice, target, hpair, rfl⟩

theorem tookInside_of_covered (hm : m.Closed) (hdistinct : m.Distinct)
    (hnames : ∀ st ∈ m.everyState, ArrowFree st.name)
    (h : entry ∈ (ofTraces m (setups.map m.traceOf)).nested)
    (hagree : BranchesAgree (scopesNamed entry.1 m.containers)) {x : String}
    (hx : x ∈ entry.2.coverage.coveredBranches) :
    ∃ c t, (∃ setup ∈ setups, m.TookInside setup entry.1 c t) ∧ x = branchId c t := by
  obtain ⟨⟨scope, hscope, choice, target, hbranch, rfl⟩, setup, hsetup, record, hrecord, hname,
    path, hpath, a, b, hpair, hid⟩ := (mem_nested_coveredBranches h).mp hx
  obtain ⟨c, hc, hcname, hruns⟩ := m.exists_container_of_record hm hrecord
  obtain ⟨i, hi⟩ := List.getElem?_of_mem hpath
  obtain ⟨other, hat, hwalk⟩ := hruns i path hi
  have hother : other ∈ scopesNamed entry.1 m.containers :=
    mem_scopesNamed.mpr ⟨c, hc, hcname.trans hname, Container.mem_of_scopeAt? hat⟩
  -- The names tell the branch and the move apart, so the move is the one of the branch.
  have harrow : ∀ s ∈ scopesNamed entry.1 m.containers, ∀ st ∈ s.states, ArrowFree st.name := by
    intro s hs st hst
    obtain ⟨c', hc', -, hs⟩ := mem_scopesNamed.mp hs
    exact hnames st (Machine.everyState_subset_of_container hc' hs (Machine.mem_everyState hst))
  obtain ⟨rfl, rfl⟩ := (branchId_inj (hbranch.arrowFree (harrow scope hscope))
    (Machine.arrowFree_of_contains (harrow other hother)
      (hwalk.contains a (hpair.subset (List.mem_cons_self ..))))).mp hid
  have hchoice : other.Branch choice target :=
    hagree scope hscope choice target hbranch other hother (hwalk.edge hpair)
  have hothers : other.Distinct := hdistinct.of_container hc (Container.mem_of_scopeAt? hat)
  exact ⟨choice, target, ⟨setup, hsetup, record, hrecord, hname, c, hc, hcname.trans hname, hruns,
    i, path, other, hi, hat, hpair, hchoice.exists_choice hothers⟩, rfl⟩

theorem branches_exactly_of_agree (hm : m.Closed) (hdistinct : m.Distinct)
    (hnames : ∀ st ∈ m.everyState, ArrowFree st.name)
    (h : entry ∈ (ofTraces m (setups.map m.traceOf)).nested)
    (hagree : BranchesAgree (scopesNamed entry.1 m.containers)) :
    let taken := {x | ∃ c t, (∃ setup ∈ setups, m.TookInside setup entry.1 c t) ∧ x = branchId c t}
    (∀ x, x ∈ entry.2.coverage.coveredBranches ↔ x ∈ taken) ∧
      entry.2.coverage.branches.Exactly
        {x | ∃ scope ∈ scopesNamed entry.1 m.containers, ∃ c t,
          scope.Branch c t ∧ x = branchId c t} taken := by
  intro taken
  have hcovered : ∀ x, x ∈ entry.2.coverage.coveredBranches ↔ x ∈ taken := by
    intro x
    constructor
    · exact tookInside_of_covered hm hdistinct hnames h hagree
    · rintro ⟨c, t, ⟨setup, hsetup, htook⟩, rfl⟩
      exact covered_of_tookInside h hsetup htook
  refine ⟨hcovered, ?_⟩
  rw [ofTraces_eq] at h
  obtain ⟨⟨name, old⟩, hold, rfl⟩ := List.mem_map.mp h
  exact ((start_declares m).2.coverage _ hold).branches_exactly hcovered

/-- The covered branches of a Map state are those that its Choice states took, where no two
containers share a name. -/
theorem map_branches_exactly {v : Json} (hv : v.Sorted) (hm : Machine.ofJson v = .ok m)
    (hnames : ∀ st ∈ m.everyState, ArrowFree st.name)
    (hdistinct : (m.containers.map (·.name)).Nodup) {c : Container} (hc : c ∈ m.containers)
    (hkind : c.kind = .map) (h : entry ∈ (ofTraces m (setups.map m.traceOf)).nested)
    (hname : entry.1 = c.name) :
    let taken := {x | ∃ c t, (∃ setup ∈ setups, m.TookInside setup entry.1 c t) ∧ x = branchId c t}
    (∀ x, x ∈ entry.2.coverage.coveredBranches ↔ x ∈ taken) ∧
      entry.2.coverage.branches.Exactly
        {x | ∃ scope ∈ c.scopes, ∃ c t, scope.Branch c t ∧ x = branchId c t} taken := by
  have hscopes := scopesNamed_of_nodup hdistinct hc
  have hagree := branchesAgree_map hdistinct hc hkind
  rw [← hname] at hscopes hagree
  rw [← hscopes]
  exact branches_exactly_of_agree (Machine.closed_of_ofJson hm) (Machine.distinct_of_ofJson hv hm)
    hnames h hagree

/-- After executions of a loaded machine, in whose state names there is no arrow, the covered
branches of a container whose branches agree are those that its Choice states took. -/
theorem nested_branches_exactly {v : Json} (hv : v.Sorted) (hm : Machine.ofJson v = .ok m)
    (hnames : ∀ st ∈ m.everyState, ArrowFree st.name)
    (h : entry ∈ (ofTraces m (setups.map m.traceOf)).nested)
    (hagree : BranchesAgree (scopesNamed entry.1 m.containers)) :
    let taken := {x | ∃ c t, (∃ setup ∈ setups, m.TookInside setup entry.1 c t) ∧ x = branchId c t}
    (∀ x, x ∈ entry.2.coverage.coveredBranches ↔ x ∈ taken) ∧
      entry.2.coverage.branches.Exactly
        {x | ∃ scope ∈ scopesNamed entry.1 m.containers, ∃ c t,
          scope.Branch c t ∧ x = branchId c t} taken :=
  branches_exactly_of_agree (Machine.closed_of_ofJson hm) (Machine.distinct_of_ofJson hv hm)
    hnames h hagree

/-- Two branches that both have a state A. The first decides in a Choice state whether to go there,
the second starts with a Pass state of the given name that always does. -/
def twoBranches (second : String) : Json :=
  .obj [
    ("StartAt", .str "Both"),
    ("States", .obj [
      ("Both", .obj [
        ("Branches", .arr [
          .obj [
            ("StartAt", .str "Route"),
            ("States", .obj [
              ("A", .obj [("Type", .str "Succeed")]),
              ("B", .obj [("Type", .str "Succeed")]),
              ("Route", .obj [
                ("Choices", .arr [.obj [
                  ("Next", .str "A"), ("StringEquals", .str "a"), ("Variable", .str "$.kind")]]),
                ("Default", .str "B"), ("Type", .str "Choice")])])],
          .obj [
            ("StartAt", .str second),
            ("States", .obj [
              ("A", .obj [("Type", .str "Succeed")]),
              (second, .obj [("Next", .str "A"), ("Type", .str "Pass")])])]]),
        ("End", .bool true), ("Type", .str "Parallel")])])]

def deciding : Machine :=
  ⟨none, "Route", none, [⟨"A", none, .succeed ⟨{}⟩⟩, ⟨"B", none, .succeed ⟨{}⟩⟩,
    ⟨"Route", none, .choice
      ⟨{}, [⟨.test "$.kind" .stringEquals (.literal (.str "a")), "A"⟩], some "B"⟩⟩]⟩

def passing (name : String) : Machine :=
  ⟨none, name, none, [⟨"A", none, .succeed ⟨{}⟩⟩,
    ⟨name, none, .pass ⟨{}, .whole, none, none, .next "A"⟩⟩]⟩

def both (second : String) : Machine :=
  ⟨none, "Both", none,
    [⟨"Both", none, .parallel ⟨{}, .whole, none, none, [], [], .finish⟩
      [deciding, passing second]⟩]⟩

theorem scope_twoBranches (second : String) :
    Load.scope .topLevel (twoBranches second) = .ok (both second) := by cbv

/-- What is executed is of the kind that the Choice state sends to B. -/
def kindGiven : Setup where
  input := .obj [("kind", .str "b")]
  engine := { config := {} }
  options := { executionName := some "run" }

theorem nested_branches_exactly_apart :
    (twoBranches "Copy").Sorted ∧ Machine.ofJson (twoBranches "Copy") = .ok (both "Copy") ∧
      (∀ st ∈ (both "Copy").everyState, ArrowFree st.name) ∧
      BranchesAgree (scopesNamed "Both" (both "Copy").containers) ∧
      ∃ entry ∈ (ofTraces (both "Copy") [(both "Copy").traceOf kindGiven]).nested,
        entry.1 = "Both" ∧
          (∃ c t, (both "Copy").TookInside kindGiven "Both" c t ∧
            branchId "Route" "B" = branchId c t) ∧
          ¬(both "Copy").TookInside kindGiven "Both" "Route" "A" := by
  have hsorted : (twoBranches "Copy").Sorted := by
    simp only [twoBranches, Json.Sorted, Json.SortedFields, Json.SortedItems]
    decide
  have hloaded : Machine.ofJson (twoBranches "Copy") = .ok (both "Copy") := by
    rw [Machine.ofJson_of_scope (scope_twoBranches _) nofun]
    rfl
  have hnames : ∀ st ∈ (both "Copy").everyState, ArrowFree st.name := by decide
  have hagree : BranchesAgree (scopesNamed "Both" (both "Copy").containers) := by
    have hscopes : scopesNamed "Both" (both "Copy").containers = [deciding, passing "Copy"] := rfl
    have hpass : ∀ c t, ¬(passing "Copy").Branch c t := by
      rintro c t ⟨st, hst, -, htarget⟩
      simp only [passing, List.mem_cons, List.not_mem_nil, or_false] at hst
      rcases hst with rfl | rfl <;> cases htarget
    rw [hscopes]
    simp only [BranchesAgree, List.mem_cons, List.not_mem_nil, or_false]
    rintro scope (rfl | rfl) choice target hbranch other (rfl | rfl) hedge
    · exact hbranch
    · -- The Choice state has a name that the other branch does not have.
      obtain ⟨st, hst, rfl, htarget⟩ := hbranch
      simp only [deciding, List.mem_cons, List.not_mem_nil, or_false] at hst
      rcases hst with rfl | rfl | rfl
      · cases htarget
      · cases htarget
      · obtain ⟨st', hst', -⟩ := hedge
        cases hst'
    · exact absurd hbranch (hpass _ _)
    · exact hbranch
  have hnested : (ofTraces (both "Copy") [(both "Copy").traceOf kindGiven]).nested.map
      (fun e => (e.1, e.2.coverage.coveredBranches.toList)) = [("Both", ["Route->B"])] := by
    decide +kernel
  obtain ⟨entry, hentry, hname⟩ := List.map_eq_singleton_iff.mp hnested
  obtain ⟨hname, hcovered⟩ := Prod.mk.inj hname
  have hmem : entry ∈ (ofTraces (both "Copy") ([kindGiven].map (both "Copy").traceOf)).nested := by
    simp [hentry]
  obtain ⟨hexact, -⟩ := nested_branches_exactly hsorted hloaded hnames hmem (by rwa [hname])
  rw [hname] at hexact
  refine ⟨hsorted, hloaded, hnames, hagree, entry, hmem, hname, ?_, fun htook => ?_⟩
  · obtain ⟨c, t, ⟨setup, hsetup, htook⟩, hid⟩ := (hexact (branchId "Route" "B")).mp (by
      show _ ∈ entry.2.coverage.coveredBranches.toList
      rw [hcovered]
      decide)
    obtain rfl := List.mem_singleton.mp hsetup
    exact ⟨c, t, htook, hid⟩
  · have h : branchId "Route" "A" ∈ entry.2.coverage.coveredBranches.toList :=
      (hexact _).mpr ⟨_, _, ⟨kindGiven, List.mem_singleton_self _, htook⟩, rfl⟩
    rw [hcovered] at h
    revert h
    decide

/-- Where the second branch starts with the name of the Choice state, its move to A counts as a
branch that the Choice state did not take. -/
theorem nested_branches_conflated :
    (twoBranches "Route").Sorted ∧ Machine.ofJson (twoBranches "Route") = .ok (both "Route") ∧
      (∀ st ∈ (both "Route").everyState, ArrowFree st.name) ∧
      ((both "Route").containers.map (·.name)).Nodup ∧
      ∃ entry ∈ (ofTraces (both "Route") [(both "Route").traceOf kindGiven]).nested,
        entry.1 = "Both" ∧ branchId "Route" "A" ∈ entry.2.coverage.coveredBranches ∧
          ¬(both "Route").TookInside kindGiven "Both" "Route" "A" := by
  have hsorted : (twoBranches "Route").Sorted := by
    simp only [twoBranches, Json.Sorted, Json.SortedFields, Json.SortedItems]
    decide
  have hloaded : Machine.ofJson (twoBranches "Route") = .ok (both "Route") := by
    rw [Machine.ofJson_of_scope (scope_twoBranches _) nofun]
    rfl
  have hrecords : ((both "Route").traceOf kindGiven).records =
      [("Both", [["Route", "B"], ["Route", "A"]])] := by
    decide +kernel
  have hnested : (ofTraces (both "Route") [(both "Route").traceOf kindGiven]).nested.map
      (fun e => (e.1, e.2.coverage.coveredBranches.toList)) =
        [("Both", ["Route->A", "Route->B"])] := by
    decide +kernel
  obtain ⟨entry, hentry, hname⟩ := List.map_eq_singleton_iff.mp hnested
  obtain ⟨hname, hcovered⟩ := Prod.mk.inj hname
  refine ⟨hsorted, hloaded, by decide, by decide, entry, by simp [hentry], hname, ?_, ?_⟩
  · show branchId "Route" "A" ∈ entry.2.coverage.coveredBranches.toList
    rw [hcovered]
    decide
  · rintro ⟨record, hrecord, -, c, hc, -, -, i, path, scope, hpath, hscope, hpair, comment, spec,
      hst⟩
    rw [hrecords] at hrecord
    obtain rfl := List.mem_singleton.mp hrecord
    obtain rfl : c = ⟨"Both", .parallel, [deciding, passing "Route"]⟩ := List.mem_singleton.mp hc
    rcases i with _ | _ | i
    · obtain rfl : ["Route", "B"] = path := Option.some.inj hpath
      revert hpair
      decide
    · obtain rfl : passing "Route" = scope := Option.some.inj hscope
      cases hst
    · cases hpath

end CoverageTracker
end StateCheck
