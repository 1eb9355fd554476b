import StateCheck.Proofs.Coverage.Declared
import StateCheck.Proofs.Coverage.Tracked
/-!
Merging trackers of one machine.

Merging is tracking: the trackers of two lists of traces merge to the tracker of both lists, one
after the other (`CoverageTracker.merge_ofTraces`). The order of the traces decides about nothing
but the order of the paths, so the report of a merge does not depend on how traces were grouped
(`CoverageTracker.merge_report`).
-/
namespace StateCheck
set_option autoImplicit false

/-! ## Merging what was tracked from the same start -/

theorem Accumulator.merge_observeAll (a : Accumulator) (xs ys : List (List String)) :
    (a.observeAll xs).merge (a.observeAll ys) = a.observeAll (xs ++ ys) := by
  refine eq_observeAll ?_ ?_ ?_ ?_ (fun x => ?_) fun x => ?_
  · simp [merge, observeAll_eq]
  · simp [merge, observeAll_eq]
  · simp [merge, observeAll_eq]
  · simp [merge, observeAll_eq]
  · simp only [merge, NameSet.mem_union, mem_coveredStates_observeAll, List.mem_append,
      or_and_right, exists_or, and_or_left]
    exact or_or_distrib_right.symm
  · simp only [merge, NameSet.mem_union, mem_coveredBranches_observeAll, List.mem_append,
      or_and_right, exists_or, and_or_left]
    exact or_or_distrib_right.symm

namespace ContainerTable

/-- What becomes of an entry when another of its name is merged into it. -/
def mergeEntry (ours theirs : ContainerCoverage) : ContainerCoverage :=
  { ours with
    executions := ours.executions + theirs.executions
    coverage := ours.coverage.merge theirs.coverage }

theorem merge_cons (ours : ContainerTable) (name : String) (c : ContainerCoverage)
    (theirs : ContainerTable) :
    merge ours ((name, c) :: theirs) =
      merge (ours.upsert name c fun entry => mergeEntry entry c) theirs := rfl

theorem merge_cons_of_above {name : String} {c : ContainerCoverage} {ours theirs : ContainerTable}
    (h : ∀ entry ∈ theirs, name < entry.1) :
    merge ((name, c) :: ours) theirs = (name, c) :: merge ours theirs := by
  induction theirs generalizing ours with
  | nil => rfl
  | cons entry rest ih =>
    obtain ⟨n, d⟩ := entry
    have hlt : name < n := h (n, d) (List.mem_cons_self ..)
    have hne : n ≠ name := (NameSet.ne_of_lt hlt).symm
    have hnot : ¬n < name := String.lt_asymm hlt
    rw [merge_cons, upsert, if_neg hne, if_neg hnot, merge_cons]
    exact ih fun entry hentry => h entry (List.mem_cons_of_mem _ hentry)

theorem merge_map {table : ContainerTable} (hsorted : table.names.Pairwise (· < ·))
    (f g : String × ContainerCoverage → ContainerCoverage) :
    merge (table.map fun entry => (entry.1, f entry)) (table.map fun entry => (entry.1, g entry)) =
      table.map fun entry => (entry.1, mergeEntry (f entry) (g entry)) := by
  induction table with
  | nil => rfl
  | cons entry rest ih =>
    obtain ⟨hfirst, hrest⟩ := List.pairwise_cons.mp hsorted
    have habove : ∀ e ∈ rest.map (fun entry => (entry.1, g entry)), entry.1 < e.1 := by
      intro e he
      obtain ⟨entry', hentry', rfl⟩ := List.mem_map.mp he
      exact hfirst entry'.1 (List.mem_map_of_mem hentry')
    -- The first entry meets its own name first, and all that is merged later stands behind it.
    rw [List.map_cons, List.map_cons, List.map_cons, merge_cons, upsert, if_pos rfl,
      merge_cons_of_above habove, ih hrest]

theorem mergeEntry_observeAll {c : ContainerCoverage} (hfresh : c.executions = 0)
    (xs ys : List (List (List String))) :
    mergeEntry (c.observeAll xs) (c.observeAll ys) = c.observeAll (xs ++ ys) := by
  simp [mergeEntry, ContainerCoverage.observeAll, hfresh, Accumulator.merge_observeAll]

end ContainerTable

namespace CoverageTracker

theorem merge_ofRecords (m : Machine) (paths paths' : List (List String))
    (records records' : List ContainerRecord) :
    (ofRecords m paths records).merge (ofRecords m paths' records') =
      ofRecords m (paths ++ paths') (records ++ records') := by
  obtain ⟨-, hnested⟩ := start_declares m
  have htable : ((start m).nested.observeAll records).merge ((start m).nested.observeAll records') =
      (start m).nested.observeAll (records ++ records') := by
    rw [ContainerTable.observeAll, ContainerTable.observeAll,
      ContainerTable.merge_map hnested.sorted]
    refine List.map_congr_left fun entry hentry => ?_
    rw [recordsOf_append,
      ContainerTable.mergeEntry_observeAll (hnested.executions entry hentry)]
  rw [ofRecords, ofRecords, ofRecords, merge, Accumulator.merge_observeAll, htable]
  cases records <;> simp

theorem merge_ofTraces (m : Machine) (xs ys : List ExecutionTrace) :
    (ofTraces m xs).merge (ofTraces m ys) = ofTraces m (xs ++ ys) := by
  rw [ofTraces_eq_ofRecords, ofTraces_eq_ofRecords, ofTraces_eq_ofRecords, merge_ofRecords,
    List.flatMap_append, List.map_append]

/-- Merging the trackers of groups of traces in order. -/
def ofGroups (m : Machine) (groups : List (List ExecutionTrace)) : CoverageTracker :=
  (groups.map (ofTraces m)).foldl merge (start m)

theorem ofGroups_eq (m : Machine) (groups : List (List ExecutionTrace)) :
    ofGroups m groups = ofTraces m groups.flatten := by
  -- What is merged so far is again a tracker of traces, those before the groups still to come.
  have hfold : ∀ (groups : List (List ExecutionTrace)) (before : List ExecutionTrace),
      (groups.map (ofTraces m)).foldl merge (ofTraces m before) =
        ofTraces m (before ++ groups.flatten) := by
    intro groups
    induction groups with
    | nil => simp
    | cons group rest ih =>
      intro before
      rw [List.map_cons, List.foldl_cons, merge_ofTraces, ih, List.flatten_cons, List.append_assoc]
  exact hfold groups []

/-! ## The order of traces -/

theorem ofTraces_perm {m : Machine} {xs ys : List ExecutionTrace} (h : xs.Perm ys) :
    ofTraces m xs = { ofTraces m ys with paths := xs.map (·.executionPath) } := by
  have hrecords := h.flatMap_right (·.records)
  have htop : (start m).top.observeAll (xs.map (·.executionPath)) =
      (start m).top.observeAll (ys.map (·.executionPath)) :=
    Accumulator.observeAll_perm (h.map _)
  have hnested : (start m).nested.observeAll (xs.flatMap (·.records)) =
      (start m).nested.observeAll (ys.flatMap (·.records)) := by
    refine List.map_congr_left fun entry _ => ?_
    have hof : (recordsOf entry.1 (xs.flatMap (·.records))).Perm
        (recordsOf entry.1 (ys.flatMap (·.records))) := (hrecords.filter _).map _
    rw [ContainerCoverage.observeAll, ContainerCoverage.observeAll, hof.length_eq,
      Accumulator.observeAll_perm hof.flatten]
  have htracked : (xs.flatMap (·.records)).isEmpty = (ys.flatMap (·.records)).isEmpty := by
    rw [Bool.eq_iff_iff, List.isEmpty_iff, List.isEmpty_iff, ← List.length_eq_zero_iff,
      ← List.length_eq_zero_iff, hrecords.length_eq]
  rw [ofTraces_eq, ofTraces_eq, htop, hnested, htracked]

theorem firstOccurrences_concat (texts : List String) (text : String) :
    firstOccurrences (texts ++ [text]) =
      if (firstOccurrences texts).contains text then firstOccurrences texts
      else firstOccurrences texts ++ [text] := List.foldl_concat ..

theorem mem_firstOccurrences {texts : List String} {text : String} :
    text ∈ firstOccurrences texts ↔ text ∈ texts := by
  induction texts using List.reverseRecOn with
  | nil => rfl
  | append_singleton rest last ih =>
    rw [firstOccurrences_concat]
    split
    · rename_i h
      rw [ih, List.mem_append, List.mem_singleton]
      have hmem : last ∈ firstOccurrences rest := by simpa using h
      constructor
      · exact .inl
      · rintro (h | rfl)
        · exact h
        · exact ih.mp hmem
    · rw [List.mem_append, List.mem_append, ih]

theorem nodup_firstOccurrences (texts : List String) : (firstOccurrences texts).Nodup := by
  induction texts using List.reverseRecOn with
  | nil => exact .nil
  | append_singleton rest last ih =>
    rw [firstOccurrences_concat]
    split
    · exact ih
    · rename_i h
      have hnot : last ∉ firstOccurrences rest := by simpa using h
      exact ih.append (List.nodup_singleton _) (by simpa using hnot)

theorem firstOccurrences_perm {xs ys : List String} (h : xs.Perm ys) :
    (firstOccurrences xs).Perm (firstOccurrences ys) := by
  refine (List.perm_ext_iff_of_nodup (nodup_firstOccurrences _) (nodup_firstOccurrences _)).mpr ?_
  intro text
  rw [mem_firstOccurrences, mem_firstOccurrences, h.mem_iff]

theorem report_perm {m : Machine} {xs ys : List ExecutionTrace} (h : xs.Perm ys) :
    let r := (ofTraces m xs).report
    let r' := (ofTraces m ys).report
    r = { r' with paths := { r'.paths with uniquePaths := r.paths.uniquePaths } } ∧
      r.paths.uniquePaths.Perm r'.paths.uniquePaths := by
  intro r r'
  have hpaths : r.paths.uniquePaths.Perm r'.paths.uniquePaths := by
    simp only [r, r', report, ofTraces_eq]
    exact firstOccurrences_perm ((h.map _).map _)
  refine ⟨?_, hpaths⟩
  have hunique : r.paths.unique = r'.paths.unique := hpaths.length_eq
  have htotal : r.paths.total = r'.paths.total := by
    simp only [r, r', report, ofTraces_eq, List.length_map, h.length_eq]
  have hstats : r.paths = { r'.paths with uniquePaths := r.paths.uniquePaths } := by
    show r.paths = ⟨r'.paths.total, r'.paths.unique, r.paths.uniquePaths⟩
    rw [← htotal, ← hunique]
  have hrest : r = { r' with paths := r.paths } := by
    simp only [r, r']
    rw [ofTraces_perm h]
    rfl
  rw [← hstats]
  exact hrest

/-- Merging the trackers of groups of traces gives the report of one tracker of all traces, in
whatever way the traces are grouped; with the groups in another order only the different paths may
stand in another order. -/
theorem merge_report (m : Machine) (groups : List (List ExecutionTrace)) :
    let together := (ofTraces m groups.flatten).report
    (ofGroups m groups).report = together ∧
      ∀ order, order.Perm groups →
        let r := (ofGroups m order).report
        r = { together with paths := { together.paths with uniquePaths := r.paths.uniquePaths } } ∧
          r.paths.uniquePaths.Perm together.paths.uniquePaths := by
  intro together
  refine ⟨by rw [ofGroups_eq], fun order horder => ?_⟩
  rw [ofGroups_eq]
  exact report_perm horder.flatten

/-- A machine of one state, a trace of it, and one with another state and an unknown container. -/
def single : Machine := ⟨none, "A", none, [⟨"A", none, .fail ⟨none, none, none, none⟩⟩]⟩

def known : ExecutionTrace := ⟨.null, ["A"], [], [], [], [], true, none⟩

def unknown : ExecutionTrace := ⟨.null, ["B"], [⟨"Each", [["C"]]⟩], [], [], [], true, none⟩

theorem merge_report_reordered :
    let r := (ofGroups single [[unknown], [known]]).report
    let together := (ofTraces single [known, unknown]).report
    r.nested = together.nested ∧ r.states = together.states ∧
      r.paths.uniquePaths = ["B", "A"] ∧ together.paths.uniquePaths = ["A", "B"] := by
  obtain ⟨-, horder⟩ := merge_report single [[known], [unknown]]
  obtain ⟨hreport, -⟩ := horder [[unknown], [known]] (.swap ..)
  exact ⟨congrArg (·.nested) hreport, congrArg (·.states) hreport, rfl, rfl⟩

end CoverageTracker
end StateCheck
