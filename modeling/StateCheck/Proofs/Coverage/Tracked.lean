import StateCheck.Coverage.Tracker
import StateCheck.Proofs.Coverage.Names
/-!
What a tracker holds after traces.

Tracking paths one by one comes to adding all their known states and moves at once
(`Accumulator.observeAll_eq`), and tracking traces one by one to sorting their records by the name
of the container (`CoverageTracker.ofTraces_eq`). What is declared stays as it was.
-/
namespace StateCheck
set_option autoImplicit false

/-! ## Records of a trace -/

/-- An execution of a container: its name and the paths of its scopes. -/
abbrev ContainerRecord := String × List (List String)

/-- The executions of containers that a trace records, those of Map states first. -/
def ExecutionTrace.records (t : ExecutionTrace) : List ContainerRecord :=
  t.mapExecutions.map (fun e => (e.state, e.iterationPaths)) ++
    t.parallelExecutions.map fun e => (e.state, e.branchPaths)

def recordsOf (name : String) (records : List ContainerRecord) : List (List (List String)) :=
  (records.filter (·.1 == name)).map (·.2)

theorem recordsOf_append (name : String) (xs ys : List ContainerRecord) :
    recordsOf name (xs ++ ys) = recordsOf name xs ++ recordsOf name ys := by
  rw [recordsOf, List.filter_append, List.map_append]
  rfl

theorem mem_recordsOf {name : String} {records : List ContainerRecord}
    {paths : List (List String)} :
    paths ∈ recordsOf name records ↔ (name, paths) ∈ records := by
  simp [recordsOf]

/-! ## Paths -/

namespace Accumulator

variable {a : Accumulator} {paths more : List (List String)} {x : String}

def observeAll (a : Accumulator) (paths : List (List String)) : Accumulator :=
  paths.foldl observe a

theorem observeAll_eq (a : Accumulator) (paths : List (List String)) :
    a.observeAll paths =
      { a with
        coveredStates := a.coveredStates.insertAll (paths.flatten.filter (· ∈ a.knownStates))
        coveredBranches :=
          a.coveredBranches.insertAll ((paths.flatMap movesOf).filter (· ∈ a.knownBranches)) } := by
  induction paths generalizing a with
  | nil => rfl
  | cons path rest ih =>
    rw [observeAll, List.foldl_cons, ← observeAll, ih, List.flatten_cons, List.flatMap_cons,
      List.filter_append, List.filter_append, NameSet.insertAll_append, NameSet.insertAll_append]
    rfl

theorem observeAll_append (a : Accumulator) (paths more : List (List String)) :
    a.observeAll (paths ++ more) = (a.observeAll paths).observeAll more := List.foldl_append

theorem mem_coveredStates_observeAll :
    x ∈ (a.observeAll paths).coveredStates ↔
      (x ∈ a.knownStates ∧ ∃ path ∈ paths, x ∈ path) ∨ x ∈ a.coveredStates := by
  rw [observeAll_eq, NameSet.mem_insertAll, List.mem_filter, List.mem_flatten, decide_eq_true_eq,
    and_comm]

theorem mem_coveredBranches_observeAll :
    x ∈ (a.observeAll paths).coveredBranches ↔
      (x ∈ a.knownBranches ∧ ∃ path ∈ paths, x ∈ movesOf path) ∨ x ∈ a.coveredBranches := by
  rw [observeAll_eq, NameSet.mem_insertAll, List.mem_filter, List.mem_flatMap, decide_eq_true_eq,
    and_comm]

theorem eq_observeAll {b : Accumulator} (hstates : b.knownStates = a.knownStates)
    (hbranches : b.knownBranches = a.knownBranches) (htotalStates : b.totalStates = a.totalStates)
    (htotalBranches : b.totalBranches = a.totalBranches)
    (hcoveredStates : ∀ x, x ∈ b.coveredStates ↔
      (x ∈ a.knownStates ∧ ∃ path ∈ paths, x ∈ path) ∨ x ∈ a.coveredStates)
    (hcoveredBranches : ∀ x, x ∈ b.coveredBranches ↔
      (x ∈ a.knownBranches ∧ ∃ path ∈ paths, x ∈ movesOf path) ∨ x ∈ a.coveredBranches) :
    b = a.observeAll paths := by
  have hs : b.coveredStates = (a.observeAll paths).coveredStates :=
    NameSet.ext fun x => (hcoveredStates x).trans mem_coveredStates_observeAll.symm
  have hb : b.coveredBranches = (a.observeAll paths).coveredBranches :=
    NameSet.ext fun x => (hcoveredBranches x).trans mem_coveredBranches_observeAll.symm
  obtain ⟨_, _, _, _, _, _⟩ := b
  simp only at hstates hbranches htotalStates htotalBranches hs hb
  rw [observeAll_eq] at hs hb ⊢
  simp only at hs hb
  rw [hs, hb, hstates, hbranches, htotalStates, htotalBranches]

/-- The order in which paths are tracked does not matter. -/
theorem observeAll_perm (h : paths.Perm more) : a.observeAll paths = a.observeAll more := by
  refine eq_observeAll ?_ ?_ ?_ ?_ (fun x => ?_) fun x => ?_
  · simp [observeAll_eq]
  · simp [observeAll_eq]
  · simp [observeAll_eq]
  · simp [observeAll_eq]
  · simp [mem_coveredStates_observeAll, h.mem_iff]
  · simp [mem_coveredBranches_observeAll, h.mem_iff]

end Accumulator

/-! ## Containers -/

/-- The coverage of a container after executions, each given by the paths of its scopes. -/
def ContainerCoverage.observeAll (c : ContainerCoverage)
    (executions : List (List (List String))) : ContainerCoverage :=
  { c with
    executions := c.executions + .ofNat executions.length
    coverage := c.coverage.observeAll executions.flatten }

theorem ContainerCoverage.observeAll_append (c : ContainerCoverage)
    (xs ys : List (List (List String))) :
    c.observeAll (xs ++ ys) = (c.observeAll xs).observeAll ys := by
  simp only [observeAll, List.flatten_append, Accumulator.observeAll_append, List.length_append,
    UInt64.ofNat_add, UInt64.add_assoc]

namespace ContainerTable

/-- The table after records: each entry has those of its own name. -/
def observeAll (records : List ContainerRecord) (table : ContainerTable) : ContainerTable :=
  table.map fun entry => (entry.1, entry.2.observeAll (recordsOf entry.1 records))

theorem foldl_observe (records : List ContainerRecord) (table : ContainerTable) :
    records.foldl (fun table r => table.observe r.1 r.2) table = table.observeAll records := by
  induction records generalizing table with
  | nil => simp [observeAll, recordsOf, ContainerCoverage.observeAll, Accumulator.observeAll]
  | cons r rest ih =>
    rw [List.foldl_cons, ih, observeAll, observe, List.map_map]
    refine List.map_congr_left fun entry _ => ?_
    have happend := recordsOf_append entry.1 [r] rest
    rw [List.singleton_append] at happend
    rw [happend, ContainerCoverage.observeAll_append]
    by_cases h : entry.1 = r.1
    · simp [recordsOf, h, ContainerCoverage.observeAll, Accumulator.observeAll]
    · have h' : ¬r.1 = entry.1 := fun e => h e.symm
      simp [recordsOf, h, h', ContainerCoverage.observeAll, Accumulator.observeAll]

theorem observeAll_append (xs ys : List ContainerRecord) (table : ContainerTable) :
    table.observeAll (xs ++ ys) = (table.observeAll xs).observeAll ys := by
  rw [← foldl_observe, ← foldl_observe, ← foldl_observe, List.foldl_append]

end ContainerTable

/-! ## Traces -/

namespace CoverageTracker

theorem foldl_trackNested (records : List ContainerRecord) (t : CoverageTracker) :
    records.foldl (fun t r => t.trackNested r.1 r.2) t =
      { t with
        nested := t.nested.observeAll records
        nestedTracked := t.nestedTracked || !records.isEmpty } := by
  rw [← ContainerTable.foldl_observe]
  induction records generalizing t with
  | nil => simp
  | cons r rest ih =>
    rw [List.foldl_cons, ih]
    simp [trackNested]

/-- A tracker of the machine that tracked paths at the top level and executions of containers. -/
def ofRecords (m : Machine) (paths : List (List String)) (records : List ContainerRecord) :
    CoverageTracker where
  top := (start m).top.observeAll paths
  nested := (start m).nested.observeAll records
  nestedTracked := !records.isEmpty
  paths

theorem start_eq_ofRecords (m : Machine) : start m = ofRecords m [] [] := by
  have hnested := ContainerTable.foldl_observe [] (start m).nested
  rw [ofRecords, ← hnested]
  rfl

section
variable {m : Machine} {paths : List (List String)} {records : List ContainerRecord}

theorem trackExecution_ofRecords (path : List String) :
    (ofRecords m paths records).trackExecution path = ofRecords m (paths ++ [path]) records := by
  rw [ofRecords, ofRecords, Accumulator.observeAll_append]
  rfl

theorem foldl_trackNested_ofRecords (more : List ContainerRecord) :
    more.foldl (fun t r => t.trackNested r.1 r.2) (ofRecords m paths records) =
      ofRecords m paths (records ++ more) := by
  rw [foldl_trackNested, ofRecords, ofRecords, ContainerTable.observeAll_append]
  cases records <;> simp

theorem trackMapExecutions_ofRecords (executions : List MapExecution) :
    (ofRecords m paths records).trackMapExecutions executions =
      ofRecords m paths (records ++ executions.map fun e => (e.state, e.iterationPaths)) := by
  rw [← foldl_trackNested_ofRecords, List.foldl_map]
  rfl

theorem trackParallelExecutions_ofRecords (executions : List ParallelExecution) :
    (ofRecords m paths records).trackParallelExecutions executions =
      ofRecords m paths (records ++ executions.map fun e => (e.state, e.branchPaths)) := by
  rw [← foldl_trackNested_ofRecords, List.foldl_map]
  rfl

theorem trackTrace_ofRecords (trace : ExecutionTrace) :
    (ofRecords m paths records).trackTrace trace =
      ofRecords m (paths ++ [trace.executionPath]) (records ++ trace.records) := by
  rw [trackTrace, trackExecution_ofRecords, trackMapExecutions_ofRecords,
    trackParallelExecutions_ofRecords, List.append_assoc]
  rfl

end

/-- A tracker of the machine that tracked the traces. -/
def ofTraces (m : Machine) (traces : List ExecutionTrace) : CoverageTracker :=
  traces.foldl trackTrace (start m)

theorem ofTraces_eq_ofRecords (m : Machine) (traces : List ExecutionTrace) :
    ofTraces m traces =
      ofRecords m (traces.map (·.executionPath)) (traces.flatMap (·.records)) := by
  induction traces using List.reverseRecOn with
  | nil => exact start_eq_ofRecords m
  | append_singleton before trace ih =>
    rw [ofTraces, List.foldl_concat, ← ofTraces, ih, trackTrace_ofRecords, List.map_append,
      List.flatMap_append, List.flatMap_singleton]
    rfl

theorem ofTraces_eq (m : Machine) (traces : List ExecutionTrace) :
    ofTraces m traces =
      { top := (start m).top.observeAll (traces.map (·.executionPath))
        nested := (start m).nested.observeAll (traces.flatMap (·.records))
        nestedTracked := !(traces.flatMap (·.records)).isEmpty
        paths := traces.map (·.executionPath) } :=
  ofTraces_eq_ofRecords m traces

end CoverageTracker
end StateCheck
