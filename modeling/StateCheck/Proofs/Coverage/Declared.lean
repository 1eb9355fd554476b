import StateCheck.Coverage.Tracker
import StateCheck.Proofs.Coverage.Names
/-!
What a new tracker knows.

The states and branches that a new tracker knows are those of the machine's own scope, and for each
container name those of all scopes that containers of the name own (`CoverageTracker.start_declares`).
Nothing is covered yet.
-/
namespace StateCheck
set_option autoImplicit false

/-! ## Scopes -/

namespace Accumulator

/-- What is known are the states and branches of some scopes, and nothing is covered. -/
structure Declares (scopes : List Machine) (a : Accumulator) : Prop where
  states : ∀ x, x ∈ a.knownStates ↔ ∃ scope ∈ scopes, x ∈ scope.stateNames
  branches : ∀ x, x ∈ a.knownBranches ↔ ∃ scope ∈ scopes, ∃ st ∈ scope.states, x ∈ branchesOf st
  totalStates : a.totalStates = a.knownStates.size
  totalBranches : a.totalBranches = a.knownBranches.size
  coveredStates : ∀ x, x ∉ a.coveredStates
  coveredBranches : ∀ x, x ∉ a.coveredBranches

theorem declares_nil : Declares [] {} where
  states x := by simp [NameSet.not_mem_empty]
  branches x := by simp [NameSet.not_mem_empty]
  totalStates := rfl
  totalBranches := rfl
  coveredStates _ := NameSet.not_mem_empty
  coveredBranches _ := NameSet.not_mem_empty

theorem Declares.declare {scopes : List Machine} {a : Accumulator} (h : Declares scopes a)
    (scope : Machine) : Declares (scopes ++ [scope]) (a.declare scope) where
  states x := by
    simp only [Accumulator.declare, NameSet.mem_insertAll, h.states, List.mem_append,
      List.mem_singleton, or_and_right, exists_or, exists_eq_left]
    exact or_comm
  branches x := by
    simp only [Accumulator.declare, NameSet.mem_insertAll, h.branches, List.mem_flatMap,
      List.mem_append, List.mem_singleton, or_and_right, exists_or, exists_eq_left]
    exact or_comm
  totalStates := rfl
  totalBranches := rfl
  coveredStates := h.coveredStates
  coveredBranches := h.coveredBranches

theorem Declares.declareAll {scopes : List Machine} {a : Accumulator} (h : Declares scopes a)
    (more : List Machine) : Declares (scopes ++ more) (more.foldl Accumulator.declare a) := by
  induction more generalizing scopes a with
  | nil => simpa using h
  | cons scope rest ih =>
    have hrest := ih (h.declare scope)
    rwa [List.append_assoc, List.singleton_append] at hrest

end Accumulator

/-! ## Containers -/

def scopesNamed (name : String) (containers : List Container) : List Machine :=
  (containers.filter (·.name == name)).flatMap (·.scopes)

theorem mem_scopesNamed {name : String} {containers : List Container} {scope : Machine} :
    scope ∈ scopesNamed name containers ↔ ∃ c ∈ containers, c.name = name ∧ scope ∈ c.scopes := by
  simp [scopesNamed, and_assoc]

namespace ContainerTable

variable {table : ContainerTable} {name : String} {fresh : ContainerCoverage}
  {f : ContainerCoverage → ContainerCoverage}

def names (table : ContainerTable) : List String := table.map (·.1)

theorem names_upsert : (table.upsert name fresh f).names = NameSet.place name table.names := by
  induction table with
  | nil => rfl
  | cons entry rest ih =>
    obtain ⟨n, c⟩ := entry
    simp only [upsert, names, List.map_cons, NameSet.place]
    split
    · rfl
    · split
      · rfl
      · exact congrArg (n :: ·) ih

theorem mem_upsert (hsorted : table.names.Pairwise (· < ·)) {entry : String × ContainerCoverage}
    (h : entry ∈ table.upsert name fresh f) :
    (entry.1 ≠ name ∧ entry ∈ table) ∨
      (entry.1 = name ∧ ∃ c, (name, c) ∈ table ∧ entry.2 = f c) ∨
      (entry.1 = name ∧ name ∉ table.names ∧ entry.2 = fresh) := by
  induction table with
  | nil =>
    obtain rfl := List.mem_singleton.mp h
    exact .inr (.inr ⟨rfl, List.not_mem_nil, rfl⟩)
  | cons first rest ih =>
    obtain ⟨n, c⟩ := first
    obtain ⟨hfirst, hrest⟩ := List.pairwise_cons.mp hsorted
    have hbelow : ∀ e ∈ rest, n < e.1 := fun e he => hfirst e.1 (List.mem_map_of_mem he)
    unfold upsert at h
    -- The names below `name` are passed, so an entry of the name would be found before a larger one.
    by_cases heq : name = n
    · subst heq
      rw [if_pos rfl] at h
      rcases List.mem_cons.mp h with rfl | h
      · exact .inr (.inl ⟨rfl, c, List.mem_cons_self .., rfl⟩)
      · exact .inl ⟨(NameSet.ne_of_lt (hbelow entry h)).symm, List.mem_cons_of_mem _ h⟩
    · rw [if_neg heq] at h
      by_cases hlt : name < n
      · rw [if_pos hlt] at h
        have habove : ∀ e ∈ (n, c) :: rest, name < e.1 := by
          rintro e (_ | ⟨_, he⟩)
          · exact hlt
          · exact String.lt_trans hlt (hbelow e he)
        rcases List.mem_cons.mp h with rfl | h
        · refine .inr (.inr ⟨rfl, fun hmem => ?_, rfl⟩)
          obtain ⟨e, he, hname⟩ := List.mem_map.mp hmem
          exact NameSet.ne_of_lt (habove e he) hname.symm
        · exact .inl ⟨(NameSet.ne_of_lt (habove entry h)).symm, h⟩
      · rw [if_neg hlt] at h
        rcases List.mem_cons.mp h with rfl | h
        · exact .inl ⟨fun e => heq e.symm, List.mem_cons_self ..⟩
        · rcases ih hrest h with ⟨hne, hmem⟩ | ⟨hname, d, hd, hentry⟩ | ⟨hname, hnot, hentry⟩
          · exact .inl ⟨hne, List.mem_cons_of_mem _ hmem⟩
          · exact .inr (.inl ⟨hname, d, List.mem_cons_of_mem _ hd, hentry⟩)
          · refine .inr (.inr ⟨hname, ?_, hentry⟩)
            rintro (_ | ⟨_, hmem⟩)
            · exact heq rfl
            · exact hnot hmem

/-- The entries are the names of containers in order, each with the scopes of its name declared and
without an execution. -/
structure Declares (containers : List Container) (table : ContainerTable) : Prop where
  sorted : table.names.Pairwise (· < ·)
  mem_names : ∀ name, name ∈ table.names ↔ ∃ c ∈ containers, c.name = name
  executions : ∀ entry ∈ table, entry.2.executions = 0
  coverage : ∀ entry ∈ table, (entry.2.coverage).Declares (scopesNamed entry.1 containers)

theorem declares_nil : Declares [] [] where
  sorted := .nil
  mem_names name := by simp [names]
  executions := nofun
  coverage := nofun

theorem Declares.declare {containers : List Container} (h : Declares containers table)
    (c : Container) : Declares (containers ++ [c]) (table.declare c) where
  sorted := by
    rw [ContainerTable.declare, names_upsert]
    exact NameSet.place_sorted h.sorted
  mem_names name := by
    rw [ContainerTable.declare, names_upsert, NameSet.mem_place, h.mem_names]
    simp only [List.mem_append, List.mem_singleton, or_and_right, exists_or, exists_eq_left]
    rw [or_comm, eq_comm]
  executions entry hentry := by
    rcases mem_upsert h.sorted hentry with ⟨-, hmem⟩ | ⟨-, d, hd, he⟩ | ⟨-, -, he⟩
    · exact h.executions entry hmem
    · rw [he]
      exact h.executions _ hd
    · rw [he]
  coverage entry hentry := by
    have hscopes : scopesNamed entry.1 (containers ++ [c]) =
        scopesNamed entry.1 containers ++ if c.name = entry.1 then c.scopes else [] := by
      rw [scopesNamed, List.filter_append, List.flatMap_append]
      by_cases hname : c.name = entry.1 <;> simp [scopesNamed, hname]
    rw [hscopes]
    rcases mem_upsert h.sorted hentry with ⟨hne, hmem⟩ | ⟨heq, d, hd, he⟩ | ⟨heq, hnot, he⟩
    · rw [if_neg (fun e => hne e.symm), List.append_nil]
      exact h.coverage entry hmem
    · rw [if_pos heq.symm, he, heq]
      exact (h.coverage _ hd).declareAll c.scopes
    · have hnil : scopesNamed entry.1 containers = [] := by
        rw [List.eq_nil_iff_forall_not_mem]
        intro scope hscope
        obtain ⟨c', hc', hname, -⟩ := mem_scopesNamed.mp hscope
        exact hnot ((h.mem_names _).mpr ⟨c', hc', hname.trans heq⟩)
      rw [if_pos heq.symm, he, hnil]
      exact Accumulator.declares_nil.declareAll c.scopes

theorem declares_containers (containers : List Container) :
    Declares containers (containers.foldl ContainerTable.declare []) := by
  induction containers using List.reverseRecOn with
  | nil => exact declares_nil
  | append_singleton rest c ih =>
    rw [List.foldl_concat]
    exact ih.declare c

end ContainerTable

/-- What a new tracker knows, at the top level and in containers. -/
theorem CoverageTracker.start_declares (m : Machine) :
    (start m).top.Declares [m] ∧ (start m).nested.Declares m.containers :=
  ⟨Accumulator.declares_nil.declare m, ContainerTable.declares_containers m.containers⟩

end StateCheck
