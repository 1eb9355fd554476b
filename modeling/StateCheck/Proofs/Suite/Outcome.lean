import StateCheck.Proofs.Suite.Schedule
/-!
What a suite ends with.

When a run is done there is a result for every case (`SuiteProgress.Sound.result`). Where failures
do not stop the run, no schedule has an influence on the results: each case has the one that it has
when it is run by itself (`SuiteRun.results_of_schedule`), also in the run that a command makes
(`SuiteRun.run_independent`).
-/
namespace StateCheck
set_option autoImplicit false

/-! ## Counts -/

theorem SuiteSummary.tally_counts (results : List TestResult) (duration : Nat) :
    let s := tally results duration
    s.passed + s.failed + s.skipped = s.total := by
  induction results with
  | nil => rfl
  | cons first rest ih =>
    simp only [tally, count, List.countP_cons, List.length_cons] at ih ⊢
    cases first.status <;> simp <;> omega

/-! ## Durations -/

/-- A case that keeps its time limit has the same result whatever time it takes, but for the time. -/
theorem PreparedSuite.runCase_duration (suite : PreparedSuite) (case : TestCase) (o : RunOptions)
    {elapsed other : Nat}
    (hlimit : ∀ limit ∈ case.timeout.or o.timeout, elapsed ≤ limit ∧ other ≤ limit) :
    { (suite.runCase case o elapsed).result with duration := other } =
      (suite.runCase case o other).result := by
  have hnone : ∀ d, (∀ limit ∈ case.timeout.or o.timeout, d ≤ limit) →
      ((case.timeout.or o.timeout).toList.filterMap fun limit =>
        if limit < d then some (AssertionFailure.timeout limit d) else none) = [] := by
    intro d hd
    rw [List.filterMap_eq_nil_iff]
    intro limit hmem
    rw [if_neg (Nat.not_lt.mpr (hd limit (Option.mem_toList.mp hmem)))]
  simp only [runCase, hnone elapsed fun limit h => (hlimit limit h).1,
    hnone other fun limit h => (hlimit limit h).2]

/-! ## Results of all cases -/

namespace SuiteProgress

variable {r : SuiteRun} {p p' : SuiteProgress}

theorem collect_map_some (runs : List CaseRun) (index : Nat) :
    collect index (runs.map some) = .ok runs := by
  induction runs generalizing index with
  | nil => rfl
  | cons first rest ih =>
    rw [List.map_cons, collect, ih]
    rfl

theorem Sound.exists_runs (h : Sound r p) (hdone : p.isDone r = true) :
    ∃ runs : List CaseRun, p.slots = runs.map some := by
  obtain ⟨hnext, hrunning, hleaving, hexited⟩ := isDone_iff.mp hdone
  -- An empty slot would be that of a case ahead of the spawner or at work.
  have hfilled : ∀ slot ∈ p.slots, slot ≠ none := by
    rintro slot hslot rfl
    obtain ⟨i, hi⟩ := List.getElem?_of_mem hslot
    have hlt : i < p.slots.length := (List.getElem?_eq_some_iff.mp hi).1
    rw [h.length] at hlt
    rcases h.waiting i hi with hle | hwork
    · omega
    · simp [mem_atWork, hrunning, hleaving, hexited] at hwork
  refine ⟨p.slots.filterMap id, Eq.symm ?_⟩
  rw [List.map_filterMap_some_eq_filter_map_isSome, List.map_id, List.filter_eq_self]
  exact fun slot hslot => Option.isSome_iff_ne_none.mpr (hfilled slot hslot)

theorem result_of_slots {runs : List CaseRun} (h : p.slots = runs.map some) (total : Nat) :
    p.result r total = .ok (summarize r total runs) := by
  rw [SuiteProgress.result, h, collect_map_some]
  rfl

theorem Sound.result (h : Sound r p) (hdone : p.isDone r = true) (total : Nat) :
    ∃ runs : List CaseRun, p.result r total = .ok (summarize r total runs) ∧
      runs.length = r.cases.length ∧
      ∀ (i : Nat) run, runs[i]? = some run → r.Ends p.cancelled i run := by
  obtain ⟨runs, hruns⟩ := h.exists_runs hdone
  refine ⟨runs, result_of_slots hruns total, ?_, fun i run hi => h.settled i run ?_⟩
  · rw [← h.length, hruns, List.length_map]
  · rw [hruns, List.getElem?_map, hi]
    rfl

theorem Step.keeps_cancelled (hstop : r.options.stopOnFailure = false) (hstep : Step r p p') :
    p'.cancelled = p.cancelled := by
  cases hstep with
  | finish => simp [SuiteRun.stops, hstop]
  | _ => rfl

theorem follow_keeps_cancelled (hstop : r.options.stopOnFailure = false) {moves : List SuiteMove}
    (hmoves : follow? r moves p = some p') : p'.cancelled = p.cancelled :=
  follow_keeps (P := fun q => q.cancelled = p.cancelled)
    (fun _ _ hstep hq => (hstep.keeps_cancelled hstop).trans hq) rfl hmoves

end SuiteProgress

namespace SuiteRun

variable {r : SuiteRun} {p : SuiteProgress}

/-- The tracker that a case contributes when it is run. -/
def trackerOf (r : SuiteRun) (case : TestCase) : CoverageTracker :=
  (CoverageTracker.start r.suite.definition).trackTrace (r.suite.caseTrace case r.options)

theorem runAlone_coverage (index : Nat) (case : TestCase) :
    (r.runAlone index case).coverage = some (r.trackerOf case) := rfl

/-- The cases that are neither marked to be skipped nor left out for others. -/
def eligible (r : SuiteRun) : List TestCase :=
  r.cases.filter fun case => (r.skipReason? case).isNone

theorem coverage_of_ends {index : Nat} {run : CaseRun} {case : TestCase}
    (hcase : r.cases[index]? = some case) (h : r.Ends false index run) :
    run.coverage = if (r.skipReason? case).isNone then some (r.trackerOf case) else none := by
  obtain ⟨case', hcase', hrun⟩ := h
  obtain rfl : case = case' := Option.some.inj (hcase.symm.trans hcase')
  cases hreason : r.skipReason? case with
  | some reason =>
    rw [hreason] at hrun
    rw [hrun]
    rfl
  | none =>
    rw [hreason] at hrun
    obtain hrun | ⟨hcancelled, -⟩ := hrun
    · rw [hrun, runAlone_coverage]
      rfl
    · cases hcancelled

theorem filterMap_coverage {runs : List CaseRun} (hlength : runs.length = r.cases.length)
    (hends : ∀ (i : Nat) run, runs[i]? = some run → r.Ends false i run) :
    runs.filterMap (·.coverage) = r.eligible.map r.trackerOf := by
  have hmap : runs.map (·.coverage) = r.cases.map fun case =>
      if (r.skipReason? case).isNone then some (r.trackerOf case) else none := by
    refine List.ext_getElem (by simp [hlength]) fun i hi hi' => ?_
    simp only [List.length_map] at hi hi'
    simp only [List.getElem_map]
    exact coverage_of_ends (List.getElem?_eq_getElem hi') (hends i _ (List.getElem?_eq_getElem hi))
  have hflat := congrArg (List.filterMap id) hmap
  rw [List.filterMap_map, List.filterMap_map] at hflat
  rw [eligible, ← List.filterMap_eq_map, List.filterMap_filter]
  simpa [Function.comp_def] using hflat

theorem isFocused_iff : r.suite.suite.isFocused = true ↔ ∃ other ∈ r.cases, other.only = true :=
  List.any_eq_true

theorem skipReason?_of_skip {case : TestCase} (hskip : case.skip = true) :
    r.skipReason? case = some "marked skip" := by simp [skipReason?, hskip]

theorem skipReason?_of_left {case : TestCase} (hskip : case.skip = false)
    (honly : case.only = false) (hother : ∃ other ∈ r.cases, other.only = true) :
    r.skipReason? case = some "not marked only" := by
  simp [skipReason?, hskip, honly, isFocused_iff.mpr hother]

theorem skipReason?_of_open {case : TestCase} (hskip : case.skip = false)
    (honly : case.only = true ∨ ∀ other ∈ r.cases, other.only = false) :
    r.skipReason? case = none := by
  have hlone : ¬(r.suite.suite.isFocused = true ∧ case.only = false) := by
    rintro ⟨hfocus, hnot⟩
    obtain ⟨other, hmem, hother⟩ := isFocused_iff.mp hfocus
    obtain honly | hnone := honly
    · rw [hnot] at honly
      cases honly
    · rw [hnone other hmem] at hother
      cases hother
  simpa [skipReason?, hskip] using hlone

theorem Ends.of_reason {index : Nat} {run : CaseRun} {case : TestCase} {cancelled : Bool}
    (h : r.Ends cancelled index run) (hcase : r.cases[index]? = some case) {reason : String}
    (hreason : r.skipReason? case = some reason) : run = .skipped case reason := by
  obtain ⟨case', hcase', hrun⟩ := h
  obtain rfl : case = case' := Option.some.inj (hcase.symm.trans hcase')
  rw [hreason] at hrun
  exact hrun

theorem Ends.of_case {index : Nat} {run : CaseRun} {case : TestCase}
    (h : r.Ends false index run) (hcase : r.cases[index]? = some case) :
    (case.skip = true → run.result = .skipped case.name "marked skip") ∧
    (case.skip = false → case.only = false → (∃ other ∈ r.cases, other.only = true) →
      run.result = .skipped case.name "not marked only") ∧
    (case.skip = false → (case.only = true ∨ ∀ other ∈ r.cases, other.only = false) →
      run = r.runAlone index case) := by
  refine ⟨fun hskip => ?_, fun hskip honly hother => ?_, fun hskip honly => ?_⟩
  · rw [h.of_reason hcase (skipReason?_of_skip hskip)]
    rfl
  · rw [h.of_reason hcase (skipReason?_of_left hskip honly hother)]
    rfl
  · obtain ⟨case', hcase', hrun⟩ := h
    obtain rfl : case = case' := Option.some.inj (hcase.symm.trans hcase')
    rw [skipReason?_of_open hskip honly] at hrun
    simpa using hrun

/-- Each case has the result that it has by itself, and the coverage is that of their trackers
merged in the order of the cases. -/
structure Independent (r : SuiteRun) (result : SuiteResult) : Prop where
  length : result.results.length = r.cases.length
  each : ∀ (i : Nat) case, r.cases[i]? = some case → ∃ res, result.results[i]? = some res ∧
    (case.skip = true → res = .skipped case.name "marked skip") ∧
    (case.skip = false → case.only = false → (∃ other ∈ r.cases, other.only = true) →
      res = .skipped case.name "not marked only") ∧
    (case.skip = false → (case.only = true ∨ ∀ other ∈ r.cases, other.only = false) →
      res = (r.suite.runCase case r.options (r.elapsed i)).result ∧
      ∀ d, (∀ limit ∈ case.timeout.or r.options.timeout, r.elapsed i ≤ limit ∧ d ≤ limit) →
        { res with duration := d } = (r.suite.runCase case r.options d).result)
  total : result.summary.total = r.cases.length
  counts : result.summary.passed + result.summary.failed + result.summary.skipped =
    result.summary.total
  coverage : result.coverage = if r.options.coverage then
    some ((r.eligible.map r.trackerOf).foldl CoverageTracker.merge
      (CoverageTracker.start r.suite.definition)).report else none

theorem independent_of_done (hsound : SuiteProgress.Sound r p) (hopen : p.cancelled = false)
    (hdone : p.isDone r = true) (total : Nat) :
    ∃ result, p.result r total = .ok result ∧ r.Independent result := by
  obtain ⟨runs, hresult, hruns, hends⟩ := hsound.result hdone total
  rw [hopen] at hends
  refine ⟨_, hresult, ?_, fun i case hcase => ?_, ?_, SuiteSummary.tally_counts _ _, ?_⟩
  · rw [SuiteProgress.summarize, List.length_map, hruns]
  · have hlt : i < runs.length := by
      rw [hruns]
      exact SuiteProgress.lt_of_case hcase
    have hrun := List.getElem?_eq_getElem hlt
    obtain ⟨hskip, hleft, halone⟩ := (hends i _ hrun).of_case hcase
    refine ⟨runs[i].result, by rw [SuiteProgress.summarize, List.getElem?_map, hrun]; rfl, hskip,
      hleft, fun hnot honly => ?_⟩
    rw [halone hnot honly]
    exact ⟨rfl, fun d hlimit => r.suite.runCase_duration case r.options hlimit⟩
  · simp [SuiteProgress.summarize, SuiteSummary.tally, hruns]
  · rw [SuiteProgress.summarize, filterMap_coverage hruns hends]

/-- Where failures do not stop a run, every schedule of it gets done after a bounded number of moves.
It ends with the results that the cases have by themselves, in the order of the cases, and with the
coverage of their trackers merged in this order. -/
theorem results_of_schedule (r : SuiteRun) (hstop : r.options.stopOnFailure = false)
    {moves : List SuiteMove} {p : SuiteProgress}
    (h : SuiteProgress.follow? r moves (r.start false) = some p) :
    moves.length ≤ movesPerCase * r.cases.length ∧
    (p.isDone r = false → ∃ move q, p.after? r move = some q) ∧
    (p.isDone r = true → ∀ total, ∃ result, p.result r total = .ok result ∧
      result.results.length = r.cases.length ∧
      (∀ (i : Nat) case, r.cases[i]? = some case → ∃ res, result.results[i]? = some res ∧
        (case.skip = true → res = .skipped case.name "marked skip") ∧
        (case.skip = false → case.only = false → (∃ other ∈ r.cases, other.only = true) →
          res = .skipped case.name "not marked only") ∧
        (case.skip = false → (case.only = true ∨ ∀ other ∈ r.cases, other.only = false) →
          res = (r.suite.runCase case r.options (r.elapsed i)).result ∧
          ∀ d, (∀ limit ∈ case.timeout.or r.options.timeout, r.elapsed i ≤ limit ∧ d ≤ limit) →
            { res with duration := d } = (r.suite.runCase case r.options d).result)) ∧
      result.summary.total = r.cases.length ∧
      result.summary.passed + result.summary.failed + result.summary.skipped =
        result.summary.total ∧
      result.coverage = if r.options.coverage then
        some ((r.eligible.map r.trackerOf).foldl CoverageTracker.merge
          (CoverageTracker.start r.suite.definition)).report else none) := by
  have hsound := SuiteProgress.sound_follow (SuiteProgress.sound_start r false) h
  have hcancelled : p.cancelled = false := SuiteProgress.follow_keeps_cancelled hstop h
  have hlength := SuiteProgress.length_follow (SuiteProgress.sound_start r false) h
  rw [SuiteProgress.left_start] at hlength
  refine ⟨by omega, fun hdone => ⟨_, SuiteProgress.after?_workerFirst hsound hdone⟩,
    fun hdone total => ?_⟩
  obtain ⟨result, hresult, hall⟩ := independent_of_done hsound hcancelled hdone total
  exact ⟨result, hresult, hall.length, hall.each, hall.total, hall.counts, hall.coverage⟩

def plainCase (name : String) (skip only : Bool) : TestCase :=
  ⟨name, none, .null, none, none, none, [], skip, only, none, [], [], []⟩

/-- Four cases of which two run, side by side. -/
def sideBySide : SuiteRun where
  suite := {
    suite := ⟨none, "suite", none, .inline .null, none, {}, {}, [plainCase "a" true true,
      plainCase "b" false true, plainCase "c" false false, plainCase "d" false true]⟩
    definition := ⟨none, "A", none, [⟨"A", none, .fail ⟨none, none, none, none⟩⟩]⟩
    baseMock := {} }
  options := { maxConcurrency := 2 }
  elapsed := fun index => 10 - index

/-- A schedule in which the last case finishes first. -/
def overtaking : List SuiteMove :=
  [.spawn, .spawn, .spawn, .spawn, .spawn, .spawn, .finish 3, .release 3, .finish 1, .join 3,
    .release 1, .join 1]

theorem results_of_schedule_overtaking :
    ∃ p, SuiteProgress.follow? sideBySide overtaking (sideBySide.start false) = some p ∧
      p.isDone sideBySide = true ∧ ∃ result, p.result sideBySide 20 = .ok result ∧
        result.results[0]? = some (.skipped "a" "marked skip") ∧
        result.results[1]? =
          some (sideBySide.suite.runCase (plainCase "b" false true) sideBySide.options 9).result ∧
        result.results[2]? = some (.skipped "c" "not marked only") ∧ result.summary.total = 4 := by
  obtain ⟨p, hp, hdone⟩ : ∃ p,
      SuiteProgress.follow? sideBySide overtaking (sideBySide.start false) = some p ∧
        p.isDone sideBySide = true := ⟨_, rfl, rfl⟩
  obtain ⟨-, -, hresults⟩ := results_of_schedule sideBySide rfl hp
  obtain ⟨result, hresult, -, hcases, htotal, -⟩ := hresults hdone 20
  obtain ⟨a, ha, hskipped, -⟩ := hcases 0 (plainCase "a" true true) rfl
  obtain ⟨b, hb, -, -, hrun⟩ := hcases 1 (plainCase "b" false true) rfl
  obtain ⟨c, hc, -, hleft, -⟩ := hcases 2 (plainCase "c" false false) rfl
  have hfocused : ∃ other ∈ sideBySide.cases, other.only = true :=
    ⟨plainCase "b" false true, by simp [cases, sideBySide], rfl⟩
  refine ⟨p, hp, hdone, result, hresult, ?_, ?_, ?_, htotal⟩
  · rw [ha, hskipped rfl]
    rfl
  · rw [hb, (hrun rfl (.inl rfl)).1]
    rfl
  · rw [hc, hleft rfl rfl hfocused]
    rfl

/-- The run that a command makes is one of these schedules and ends with the same results. Its
semaphore is never asked for more permits than it may have. -/
theorem run_independent (r : SuiteRun) (hsemaphore : r.permits ≤ maxPermits)
    (hstop : r.options.stopOnFailure = false) (total : Nat) :
    ∃ moves result, SuiteProgress.follow? r moves (r.start false) = some (r.finished false) ∧
      (∀ before q, before <+: moves → SuiteProgress.follow? r before (r.start false) = some q →
        q.permitsOut ≤ maxPermits) ∧
      r.run false total = .ok result ∧ r.Independent result := by
  obtain ⟨hdone, moves, hmoves, hwithin⟩ := r.finished_within hsemaphore false
  have hsound := SuiteProgress.sound_follow (SuiteProgress.sound_start r false) hmoves
  have hopen : (r.finished false).cancelled = false :=
    SuiteProgress.follow_keeps_cancelled hstop hmoves
  obtain ⟨result, hresult, hall⟩ := independent_of_done hsound hopen hdone total
  exact ⟨moves, result, hmoves, hwithin, hresult, hall⟩

end SuiteRun
end StateCheck
