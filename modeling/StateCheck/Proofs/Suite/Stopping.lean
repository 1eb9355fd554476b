import StateCheck.Proofs.Suite.Outcome
/-!
Suites that stop at a failure.

The cases that are to run fall into those before a cut, which are started, and those after it, which
the spawner passes over because the run is cancelled (`SuiteProgress.Cut`). Every step keeps a cut;
it is moved on only by the start of a case, and a run is cancelled only by a failure before it. With
a single permit no case is started after a failure, so that the cut stands behind the first one.
What is left of the cases then is stated of every schedule (`SuiteRun.cut_of_schedule`) and of the
run that a command makes (`SuiteRun.run_stopsAt`).
-/
namespace StateCheck
set_option autoImplicit false

variable {r : SuiteRun} {p p' : SuiteProgress}

namespace SuiteRun

/-- The case of the number is to run, and it fails. -/
def Fails (r : SuiteRun) (index : Nat) : Prop :=
  ∃ case, r.Eligible index case ∧ (r.runAlone index case).result.status = .failed

theorem Eligible.unique {index : Nat} {case case' : TestCase} (h : r.Eligible index case)
    (h' : r.Eligible index case') : case = case' := Option.some.inj (h.1.symm.trans h'.1)

theorem Fails.eligible {index : Nat} (h : r.Fails index) : ∃ case, r.Eligible index case := by
  obtain ⟨case, helig, -⟩ := h
  exact ⟨case, helig⟩

theorem Fails.stops (hstop : r.options.stopOnFailure = true) {index : Nat} (h : r.Fails index)
    {case : TestCase} (helig : r.Eligible index case) :
    r.stops (r.runAlone index case) = true := by
  obtain ⟨case', helig', hfailed⟩ := h
  obtain rfl := helig.unique helig'
  rw [SuiteRun.stops, hstop, hfailed]
  rfl

theorem fails_of_stops {index : Nat} {case : TestCase} (helig : r.Eligible index case)
    (h : r.stops (r.runAlone index case) = true) : r.Fails index := by
  refine ⟨case, helig, ?_⟩
  rw [SuiteRun.stops, Bool.and_eq_true] at h
  exact eq_of_beq h.2

theorem runAlone_skipReason (index : Nat) (case : TestCase) :
    (r.runAlone index case).result.skipReason = none := rfl

theorem Ends.fails {cancelled : Bool} {index : Nat} {run : CaseRun} (h : r.Ends cancelled index run)
    (hfailed : run.result.status = .failed) : r.Fails index := by
  obtain ⟨case, hcase, hrun⟩ := h
  cases hreason : r.skipReason? case with
  | some reason =>
    rw [hreason] at hrun
    rw [hrun] at hfailed
    cases hfailed
  | none =>
    rw [hreason] at hrun
    obtain rfl | ⟨-, rfl⟩ := hrun
    · exact ⟨case, ⟨hcase, hreason⟩, hfailed⟩
    · cases hfailed

theorem skipReason?_ne_cancelled (case : TestCase) : r.skipReason? case ≠ some "cancelled" := by
  unfold skipReason?
  split
  · simp
  · split <;> simp

end SuiteRun

namespace SuiteProgress

/-! ## The cut -/

/-- With a single permit nobody runs while the spawner has it. -/
theorem running_of_holding (hone : r.permits = 1) (h : p.permitsOut ≤ r.permits)
    (hholding : p.holding = true) : p.running = [] := by
  rw [hone, permitsOut, if_pos hholding] at h
  exact List.eq_nil_of_length_eq_zero (by omega)

/-- The cases to run are started before the cut and passed over after it. -/
structure Cut (r : SuiteRun) (p : SuiteProgress) (cut : Nat) : Prop where
  le_next : cut ≤ p.next
  atWork : ∀ i ∈ p.atWork, i < cut
  started : ∀ i case, i < cut → r.Eligible i case →
    i ∈ p.atWork ∨ p.slots[i]? = some (some (r.runAlone i case))
  passed : ∀ i case, cut ≤ i → i < p.next → r.Eligible i case →
    p.cancelled = true ∧ p.slots[i]? = some (some (.skipped case "cancelled"))
  cause : p.cancelled = true → ∃ j, j < cut ∧ r.Fails j
  failing : ∀ i, i < cut → r.Fails i → i ∈ p.running ∨ p.cancelled = true
  single : r.permits = 1 → ∀ i case, i < cut → r.Eligible i case → ∀ j, j < i → ¬r.Fails j

theorem cut_start (r : SuiteRun) : Cut r (r.start false) 0 where
  le_next := Nat.le_refl 0
  atWork _ hi := absurd hi List.not_mem_nil
  started _ _ hi := absurd hi (Nat.not_lt_zero _)
  passed _ _ _ hi := absurd hi (Nat.not_lt_zero _)
  cause hcancelled := by cases hcancelled
  failing _ hi := absurd hi (Nat.not_lt_zero _)
  single _ _ _ hi := absurd hi (Nat.not_lt_zero _)

variable {cut : Nat}

theorem Cut.lt_of_eligible (h : Cut r p cut) (hopen : p.cancelled = false) {i : Nat}
    {case : TestCase} (hi : i < p.next) (helig : r.Eligible i case) : i < cut := by
  by_contra hle
  have hpassed := (h.passed i case (Nat.le_of_not_lt hle) hi helig).1
  rw [hopen] at hpassed
  cases hpassed

theorem Cut.skip (h : Cut r p cut) (hsound : Sound r p) {case : TestCase}
    (hcase : r.cases[p.next]? = some case) {reason : String}
    (hpassed : r.skipReason? case = none → p.cancelled = true ∧ reason = "cancelled") :
    Cut r (p.skip case reason) cut := by
  have hle := h.le_next
  have hlt := lt_of_case hcase
  rw [← hsound.length] at hlt
  have hslots : ∀ i, i ≠ p.next → (p.skip case reason).slots[i]? = p.slots[i]? :=
    fun i hne => List.getElem?_set_ne hne.symm
  refine { h with
    le_next := Nat.le_succ_of_le hle
    started := fun i case' hi helig => ?_
    passed := fun i case' hi hnext helig => ?_ }
  · rw [hslots i (by omega)]
    exact h.started i case' hi helig
  · by_cases heq : i = p.next
    · subst heq
      obtain rfl := Option.some.inj (hcase.symm.trans helig.1)
      obtain ⟨hcancelled, rfl⟩ := hpassed helig.2
      exact ⟨hcancelled, List.getElem?_set_self hlt⟩
    · rw [hslots i heq]
      simp only [SuiteProgress.skip] at hnext
      exact h.passed i case' hi (by omega) helig

theorem Cut.begin (h : Cut r p cut) (hpermits : p.permitsOut ≤ r.permits)
    (hholding : p.holding = true) (hopen : p.cancelled = false) :
    Cut r { p with next := p.next + 1, holding := false, running := p.running ++ [p.next] }
      (p.next + 1) := by
  have hle := h.le_next
  have hmem : ∀ i, i ∈ SuiteProgress.atWork { p with
      next := p.next + 1, holding := false, running := p.running ++ [p.next] } ↔
      i ∈ p.atWork ∨ i = p.next := by
    intro i
    simp only [mem_atWork, List.mem_append, List.mem_singleton]
    tauto
  -- What is to run among the cases passed so far was started, and the case is started now.
  have hearlier : ∀ i case', i < p.next + 1 → r.Eligible i case' → i < cut ∨ i = p.next := by
    intro i case' hi hcase'
    by_cases heq : i = p.next
    · exact .inr heq
    · exact .inl (h.lt_of_eligible hopen (by omega) hcase')
  constructor
  case le_next => exact Nat.le_refl _
  case atWork =>
    intro i hi
    rcases (hmem i).mp hi with hi | rfl
    · have := h.atWork i hi
      omega
    · exact Nat.lt_succ_self _
  case started =>
    intro i case' hi hcase'
    rw [hmem i]
    rcases hearlier i case' hi hcase' with hi | rfl
    · exact (h.started i case' hi hcase').imp_left .inl
    · exact .inl (.inr rfl)
  case passed =>
    intro i case' hi hnext
    have : i < p.next + 1 := hnext
    omega
  case cause =>
    intro hcancelled
    rw [hopen] at hcancelled
    cases hcancelled
  case failing =>
    intro i hi hfails
    obtain ⟨case', hcase'⟩ := hfails.eligible
    rcases hearlier i case' hi hcase' with hi | rfl
    · exact (h.failing i hi hfails).imp_left (List.mem_append_left _)
    · exact .inl (List.mem_append_right _ (List.mem_singleton_self _))
  case single =>
    intro hone i case' hi hcase' j hj hfails
    rcases hearlier i case' hi hcase' with hi | rfl
    · exact h.single hone i case' hi hcase' j hj hfails
    · -- The failure would have cancelled the run before its worker gave the permit back.
      obtain ⟨case', hcase'⟩ := hfails.eligible
      have hidle := running_of_holding hone hpermits hholding
      rcases h.failing j (h.lt_of_eligible hopen hj hcase') hfails with hrunning | hcancelled
      · rw [hidle] at hrunning
        cases hrunning
      · rw [hopen] at hcancelled
        cases hcancelled

theorem Cut.finish (h : Cut r p cut) (hstop : r.options.stopOnFailure = true) {index : Nat}
    {case : TestCase} (helig : r.Eligible index case) (hrunning : index ∈ p.running) :
    Cut r { p with
      running := p.running.erase index
      leaving := p.leaving ++ [(index, r.runAlone index case)]
      cancelled := p.cancelled || r.stops (r.runAlone index case) } cut := by
  have hmem := fun i => mem_atWork_finish (p := p) (i := i) hrunning (r.runAlone index case)
    (p.cancelled || r.stops (r.runAlone index case))
  have hlt := h.atWork index (mem_atWork.mpr (.inl hrunning))
  refine { h with
    atWork := fun i hi => h.atWork i ((hmem i).mp hi)
    started := fun i case' hi hcase' => (h.started i case' hi hcase').imp_left (hmem i).mpr
    passed := fun i case' hi hnext hcase' => ?_
    cause := fun hcancelled => ?_
    failing := fun i hi hfails => ?_ }
  · obtain ⟨hcancelled, hslot⟩ := h.passed i case' hi hnext hcase'
    exact ⟨by rw [hcancelled, Bool.true_or], hslot⟩
  · rcases Bool.or_eq_true_iff.mp hcancelled with hcancelled | hstops
    · exact h.cause hcancelled
    · exact ⟨index, hlt, SuiteRun.fails_of_stops helig hstops⟩
  · rcases h.failing i hi hfails with hrun | hcancelled
    · by_cases heq : i = index
      · subst heq
        exact .inr (by rw [hfails.stops hstop helig, Bool.or_true])
      · exact .inl ((List.mem_erase_of_ne heq).mpr hrun)
    · exact .inr (by rw [hcancelled, Bool.true_or])

theorem Cut.release (h : Cut r p cut) {index : Nat} {done : CaseRun}
    (hleaving : (index, done) ∈ p.leaving) :
    Cut r { p with
      leaving := p.leaving.filter (·.1 != index)
      exited := p.exited ++ [(index, done)] } cut :=
  { h with
    atWork := fun i hi => h.atWork i ((mem_atWork_release hleaving).mp hi)
    started := fun i case hi helig =>
      (h.started i case hi helig).imp_left (mem_atWork_release hleaving).mpr }

theorem Cut.join (h : Cut r p cut) (hsound : Sound r p) {index : Nat} {done : CaseRun}
    (hexited : (index, done) ∈ p.exited) :
    Cut r { p with
      exited := p.exited.filter (·.1 != index)
      slots := p.slots.set index (some done) } cut := by
  obtain ⟨case, helig, rfl⟩ : ∃ case, r.Eligible index case ∧ done = r.runAlone index case :=
    hsound.finished _ (List.mem_append_right _ hexited)
  have hlt : index < p.slots.length := hsound.length ▸ lt_of_case helig.1
  have hindex : index < cut := h.atWork index (mem_atWork.mpr (.inr (.inr ⟨_, hexited⟩)))
  refine { h with
    atWork := fun i hi => ?_
    started := fun i case' hi hcase' => ?_
    passed := fun i case' hi hnext hcase' => ?_ }
  · by_cases heq : i = index
    · rw [heq]
      exact hindex
    · exact h.atWork i ((mem_atWork_join heq _).mp hi)
  · by_cases heq : i = index
    · subst heq
      obtain rfl := helig.unique hcase'
      exact .inr (List.getElem?_set_self hlt)
    · rw [mem_atWork_join heq, List.getElem?_set_ne (fun e => heq e.symm)]
      exact h.started i case' hi hcase'
  · rw [List.getElem?_set_ne (by omega)]
    exact h.passed i case' hi hnext hcase'

theorem Step.keeps_cut (hstop : r.options.stopOnFailure = true) (hsound : Sound r p)
    (hpermits : p.permitsOut ≤ r.permits) (h : Cut r p cut) (hstep : Step r p p') :
    ∃ cut', Cut r p' cut' := by
  cases hstep with
  | skip hcase hreason =>
    refine ⟨cut, h.skip hsound hcase fun hnone => ?_⟩
    rw [hreason] at hnone
    cases hnone
  | acquire hcase hreason hfree hpermits => exact ⟨cut, { h with }⟩
  | cancel hcase hreason hholding hcancelled =>
    exact ⟨cut, h.skip hsound hcase fun _ => ⟨hcancelled, rfl⟩⟩
  | start hcase hreason hholding hcancelled =>
    exact ⟨_, h.begin hpermits hholding hcancelled⟩
  | finish hcase hrunning =>
    obtain ⟨case', helig⟩ := hsound.running _ hrunning
    obtain rfl := Option.some.inj (helig.1.symm.trans hcase)
    exact ⟨cut, h.finish hstop helig hrunning⟩
  | release hleaving => exact ⟨cut, h.release (mem_of_lookup hleaving)⟩
  | join hnext hexited => exact ⟨cut, h.join hsound (mem_of_lookup hexited)⟩

theorem cut_follow (hstop : r.options.stopOnFailure = true) {moves : List SuiteMove}
    (hmoves : follow? r moves (r.start false) = some p) :
    Sound r p ∧ p.permitsOut ≤ r.permits ∧ ∃ cut, Cut r p cut := by
  refine follow_keeps (P := fun q => Sound r q ∧ q.permitsOut ≤ r.permits ∧ ∃ cut, Cut r q cut)
    ?_ ⟨sound_start r false, permitsOut_start r false, 0, cut_start r⟩ hmoves
  rintro q q' hstep ⟨hsound, hpermits, cut, hcut⟩
  exact ⟨hstep.sound hsound, hstep.permitsOut_le hpermits,
    hstep.keeps_cut hstop hsound hpermits hcut⟩

/-! ## What is left when the run is done -/

theorem running_length_le (h : p.permitsOut ≤ r.permits) :
    p.running.length ≤ max 1 r.options.maxConcurrency := by
  have hle : p.running.length ≤ r.permits := by
    rw [permitsOut] at h
    omega
  rwa [SuiteRun.permits, Nat.max_comm] at hle

section Done

variable {cut : Nat} {runs : List CaseRun}

theorem Cut.run_of_lt (h : Cut r p cut) (hdone : p.isDone r = true)
    (hslots : p.slots = runs.map some) {i : Nat} {case : TestCase} (helig : r.Eligible i case)
    (hi : i < cut) : runs[i]? = some (r.runAlone i case) := by
  obtain ⟨-, hrunning, hleaving, hexited⟩ := isDone_iff.mp hdone
  rcases h.started i case hi helig with hwork | hslot
  · simp [SuiteProgress.mem_atWork, hrunning, hleaving, hexited] at hwork
  · simpa [hslots] using hslot

theorem Cut.run_of_le (h : Cut r p cut) (hdone : p.isDone r = true)
    (hslots : p.slots = runs.map some) {i : Nat} {case : TestCase} (helig : r.Eligible i case)
    (hi : cut ≤ i) : p.cancelled = true ∧ runs[i]? = some (.skipped case "cancelled") := by
  have hnext : i < p.next := (isDone_iff.mp hdone).1 ▸ lt_of_case helig.1
  obtain ⟨hcancelled, hslot⟩ := h.passed i case hi hnext helig
  exact ⟨hcancelled, by simpa [hslots] using hslot⟩

theorem Cut.exists_failed (h : Cut r p cut) (hdone : p.isDone r = true)
    (hslots : p.slots = runs.map some) (hcancelled : p.cancelled = true) :
    ∃ j, j < cut ∧ ∃ run, runs[j]? = some run ∧ run.result.status = .failed := by
  obtain ⟨j, hj, case, helig, hfailed⟩ := h.cause hcancelled
  exact ⟨j, hj, _, h.run_of_lt hdone hslots helig hj, hfailed⟩

theorem Cut.lt_iff_none_failed (h : Cut r p cut) (hdone : p.isDone r = true)
    (hslots : p.slots = runs.map some)
    (hends : ∀ (i : Nat) run, runs[i]? = some run → r.Ends p.cancelled i run)
    (hpermit : r.permits = 1) {i : Nat} {case : TestCase} (helig : r.Eligible i case) :
    i < cut ↔ ∀ (j : Nat) run, j < i → runs[j]? = some run → run.result.status ≠ .failed := by
  constructor
  · intro hi j run hj hrun hstatus
    exact h.single hpermit i case hi helig j hj ((hends j run hrun).fails hstatus)
  · intro hnone
    by_contra hle
    have hpassed := h.run_of_le hdone hslots helig (Nat.le_of_not_lt hle)
    obtain ⟨j, hj, run, hrun, hstatus⟩ := h.exists_failed hdone hslots hpassed.1
    exact hnone j run (by omega) hrun hstatus

theorem Cut.exists_failed_before (h : Cut r p cut) (hdone : p.isDone r = true)
    (hslots : p.slots = runs.map some)
    (hends : ∀ (i : Nat) run, runs[i]? = some run → r.Ends p.cancelled i run)
    {i : Nat} {run : CaseRun} (hrun : runs[i]? = some run)
    (hcancelled : run.result.skipReason = some "cancelled") :
    ∃ j, j < i ∧ ∃ earlier, runs[j]? = some earlier ∧ earlier.result.status = .failed := by
  obtain ⟨case, hcase, hend⟩ := hends i run hrun
  cases hreason : r.skipReason? case with
  | some reason =>
    rw [hreason] at hend
    rw [hend] at hcancelled
    have hsame : some reason = some "cancelled" := hcancelled
    exact (SuiteRun.skipReason?_ne_cancelled case (hreason.trans hsame)).elim
  | none =>
    -- A case before the cut has run and gives no reason for having been skipped.
    have hle : cut ≤ i := by
      by_contra hlt
      have halone := h.run_of_lt hdone hslots ⟨hcase, hreason⟩ (Nat.lt_of_not_le hlt)
      rw [Option.some.inj (hrun.symm.trans halone), SuiteRun.runAlone_skipReason] at hcancelled
      cases hcancelled
    obtain ⟨j, hj, earlier, hearlier, hstatus⟩ :=
      h.exists_failed hdone hslots (h.run_of_le hdone hslots ⟨hcase, hreason⟩ hle).1
    exact ⟨j, by omega, earlier, hearlier, hstatus⟩

end Done

end SuiteProgress

namespace SuiteRun

/-- The cases that are to run have their own results before the cut and are cancelled after it. It
takes a failed case before to cancel one, and with a single permit the cut stands right behind the
first failed case. -/
structure StopsAt (r : SuiteRun) (cut : Nat) (result : SuiteResult) : Prop where
  length : result.results.length = r.cases.length
  each : ∀ (i : Nat) case, r.cases[i]? = some case → ∃ res, result.results[i]? = some res ∧
    (case.skip = true → res = .skipped case.name "marked skip") ∧
    (case.skip = false → case.only = false → (∃ other ∈ r.cases, other.only = true) →
      res = .skipped case.name "not marked only") ∧
    (case.skip = false → (case.only = true ∨ ∀ other ∈ r.cases, other.only = false) →
      (i < cut → res = (r.suite.runCase case r.options (r.elapsed i)).result) ∧
      (cut ≤ i → res = .skipped case.name "cancelled") ∧
      (r.options.maxConcurrency ≤ 1 → (i < cut ↔ ∀ (j : Nat) earlier, j < i →
        result.results[j]? = some earlier → earlier.status ≠ .failed)))
  cause : ∀ (i : Nat) res, result.results[i]? = some res → res.skipReason = some "cancelled" →
    ∃ j, j < i ∧ ∃ earlier, result.results[j]? = some earlier ∧ earlier.status = .failed

theorem stopsAt_of_done {cut : Nat} (hsound : SuiteProgress.Sound r p)
    (hcut : SuiteProgress.Cut r p cut) (hdone : p.isDone r = true) (total : Nat) :
    ∃ result, p.result r total = .ok result ∧ r.StopsAt cut result := by
  obtain ⟨runs, hslots⟩ := hsound.exists_runs hdone
  have hruns : runs.length = r.cases.length := by rw [← hsound.length, hslots, List.length_map]
  have hresults : ∀ i : Nat, (SuiteProgress.summarize r total runs).results[i]? =
      runs[i]?.map (·.result) := fun i => List.getElem?_map ..
  have hends : ∀ (i : Nat) run, runs[i]? = some run → r.Ends p.cancelled i run := by
    intro i run hi
    exact hsound.settled i run (by simpa [hslots] using hi)
  refine ⟨_, SuiteProgress.result_of_slots hslots total, ?_, fun i case hcase => ?_,
    fun i res hi hcancelled => ?_⟩
  · rw [SuiteProgress.summarize, List.length_map, hruns]
  · have hlt : i < runs.length := hruns ▸ SuiteProgress.lt_of_case hcase
    have hrun := List.getElem?_eq_getElem hlt
    refine ⟨runs[i].result, by rw [hresults, hrun]; rfl, fun hskip => ?_,
      fun hskip honly hother => ?_, fun hskip honly => ?_⟩
    · rw [(hends i _ hrun).of_reason hcase (skipReason?_of_skip hskip)]
      rfl
    · rw [(hends i _ hrun).of_reason hcase (skipReason?_of_left hskip honly hother)]
      rfl
    · have helig : r.Eligible i case := ⟨hcase, skipReason?_of_open hskip honly⟩
      refine ⟨fun hi => ?_, fun hi => ?_, fun hone => ?_⟩
      · rw [Option.some.inj (hrun.symm.trans (hcut.run_of_lt hdone hslots helig hi))]
        rfl
      · rw [Option.some.inj (hrun.symm.trans (hcut.run_of_le hdone hslots helig hi).2)]
        rfl
      · have hpermit : r.permits = 1 := by
          unfold permits
          omega
        rw [hcut.lt_iff_none_failed hdone hslots hends hpermit helig]
        simp only [hresults, Option.map_eq_some_iff]
        constructor
        · rintro hnone j _ hj ⟨earlier, hearlier, rfl⟩
          exact hnone j earlier hj hearlier
        · exact fun hnone j earlier hj hearlier => hnone j _ hj ⟨earlier, hearlier, rfl⟩
  · rw [hresults] at hi
    obtain ⟨run, hrun, rfl⟩ := Option.map_eq_some_iff.mp hi
    obtain ⟨j, hj, earlier, hearlier, hstatus⟩ :=
      hcut.exists_failed_before hdone hslots hends hrun hcancelled
    exact ⟨j, hj, earlier.result, by rw [hresults, hearlier]; rfl, hstatus⟩

/-- Where failures stop a run, every schedule of it gets done after a bounded number of moves, with
at most as many cases at once as it has permits. The cases that were run are those before a cut, and
all others that were to run are cancelled, which takes a failed case before them. With a single
permit the cut stands right behind the first failed case. -/
theorem cut_of_schedule (r : SuiteRun) (hstop : r.options.stopOnFailure = true)
    {moves : List SuiteMove} {p : SuiteProgress}
    (h : SuiteProgress.follow? r moves (r.start false) = some p) :
    p.running.length ≤ max 1 r.options.maxConcurrency ∧
    moves.length ≤ movesPerCase * r.cases.length ∧
    (p.isDone r = false → ∃ move q, p.after? r move = some q) ∧
    (p.isDone r = true → ∀ total, ∃ result cut, p.result r total = .ok result ∧
      result.results.length = r.cases.length ∧
      (∀ (i : Nat) case, r.cases[i]? = some case → ∃ res, result.results[i]? = some res ∧
        (case.skip = true → res = .skipped case.name "marked skip") ∧
        (case.skip = false → case.only = false → (∃ other ∈ r.cases, other.only = true) →
          res = .skipped case.name "not marked only") ∧
        (case.skip = false → (case.only = true ∨ ∀ other ∈ r.cases, other.only = false) →
          (i < cut → res = (r.suite.runCase case r.options (r.elapsed i)).result) ∧
          (cut ≤ i → res = .skipped case.name "cancelled") ∧
          (r.options.maxConcurrency ≤ 1 → (i < cut ↔ ∀ (j : Nat) earlier, j < i →
            result.results[j]? = some earlier → earlier.status ≠ .failed)))) ∧
      ∀ (i : Nat) res, result.results[i]? = some res → res.skipReason = some "cancelled" →
        ∃ j, j < i ∧ ∃ earlier, result.results[j]? = some earlier ∧ earlier.status = .failed) := by
  obtain ⟨hsound, hpermits, cut, hcut⟩ := SuiteProgress.cut_follow hstop h
  have hlength := SuiteProgress.length_follow (SuiteProgress.sound_start r false) h
  rw [SuiteProgress.left_start] at hlength
  refine ⟨SuiteProgress.running_length_le hpermits, by omega,
    fun hdone => ⟨_, SuiteProgress.after?_workerFirst hsound hdone⟩, fun hdone total => ?_⟩
  obtain ⟨result, hresult, hall⟩ := stopsAt_of_done hsound hcut hdone total
  exact ⟨result, cut, hresult, hall.length, hall.each, hall.cause⟩

/-- Four cases for one permit: one that is marked, one that passes, one that fails and a last one. -/
def failingThird : SuiteRun where
  suite := {
    suite := ⟨none, "suite", none, .inline .null, none, {}, {}, [plainCase "a" true false,
      plainCase "b" false false,
      { plainCase "c" false false with expectedPath := some ["B"] },
      plainCase "d" false false]⟩
    definition := ⟨none, "A", none, [⟨"A", none, .succeed ⟨{}⟩⟩]⟩
    baseMock := {} }
  options := { stopOnFailure := true }

/-- The spawner waits for the permit before each case. -/
def oneByOne : List SuiteMove :=
  [.spawn, .spawn, .spawn, .finish 1, .release 1, .spawn, .spawn, .finish 2, .release 2, .spawn,
    .spawn, .join 2, .join 1]

theorem cut_of_schedule_failing : ∃ p,
    SuiteProgress.follow? failingThird oneByOne (failingThird.start false) = some p ∧
      p.isDone failingThird = true ∧ ∃ result, p.result failingThird 7 = .ok result ∧
        result.results[1]? =
          some (failingThird.suite.runCase (plainCase "b" false false) failingThird.options 0).result ∧
        (result.results[2]?.map fun res => res.status) = some .failed ∧
        result.results[3]? = some (.skipped "d" "cancelled") := by
  have hrun : (SuiteProgress.follow? failingThird oneByOne (failingThird.start false)).map
      (SuiteProgress.isDone failingThird) = some true := by decide +kernel
  obtain ⟨p, hp, hdone⟩ := Option.map_eq_some_iff.mp hrun
  obtain ⟨-, -, -, hdones⟩ := cut_of_schedule failingThird rfl hp
  obtain ⟨result, cut, hresult, -, hcases, -⟩ := hdones hdone 7
  have hnone : ∀ other ∈ failingThird.cases, other.only = false := by
    simp [cases, failingThird, plainCase]
  obtain ⟨a, ha, hskipped, -⟩ := hcases 0 (plainCase "a" true false) rfl
  obtain ⟨b, hb, -, -, hopen⟩ := hcases 1 (plainCase "b" false false) rfl
  obtain ⟨hbrun, -, hbcut⟩ := hopen rfl (.inr hnone)
  obtain ⟨c, hc, -, -, hopen⟩ :=
    hcases 2 { plainCase "c" false false with expectedPath := some ["B"] } rfl
  obtain ⟨hcrun, -, hccut⟩ := hopen rfl (.inr hnone)
  obtain ⟨d, hd, -, -, hopen⟩ := hcases 3 (plainCase "d" false false) rfl
  obtain ⟨-, hdcancelled, hdcut⟩ := hopen rfl (.inr hnone)
  have hastatus : a.status = .skipped := by
    rw [hskipped rfl]
    rfl
  have hbeq := hbrun ((hbcut (by decide)).mpr fun j earlier hj hearlier => by
    obtain rfl : j = 0 := by omega
    rw [ha] at hearlier
    cases hearlier
    rw [hastatus]
    decide)
  have hbstatus : b.status = .passed := by
    rw [hbeq]
    decide +kernel
  have hceq := hcrun ((hccut (by decide)).mpr fun j earlier hj hearlier => by
    obtain rfl | rfl : j = 0 ∨ j = 1 := by omega
    · rw [ha] at hearlier
      cases hearlier
      rw [hastatus]
      decide
    · rw [hb] at hearlier
      cases hearlier
      rw [hbstatus]
      decide)
  have hcstatus : c.status = .failed := by
    rw [hceq]
    decide +kernel
  have hdeq := hdcancelled (Nat.le_of_not_lt fun hlt =>
    (hdcut (by decide)).mp hlt 2 c (by omega) hc hcstatus)
  refine ⟨p, hp, hdone, result, hresult, ?_, ?_, ?_⟩
  · rw [hb, hbeq]
    rfl
  · rw [hc, Option.map_some, hcstatus]
  · rw [hd, hdeq]
    rfl

/-- The run that a command makes is one of these schedules and stops in the same way. Its semaphore
is never asked for more permits than it may have. -/
theorem run_stopsAt (r : SuiteRun) (hsemaphore : r.permits ≤ maxPermits)
    (hstop : r.options.stopOnFailure = true) (total : Nat) :
    ∃ moves result cut, SuiteProgress.follow? r moves (r.start false) = some (r.finished false) ∧
      (∀ before q, before <+: moves → SuiteProgress.follow? r before (r.start false) = some q →
        q.permitsOut ≤ maxPermits) ∧
      r.run false total = .ok result ∧ r.StopsAt cut result := by
  obtain ⟨hdone, moves, hmoves, hwithin⟩ := r.finished_within hsemaphore false
  obtain ⟨hsound, -, cut, hcut⟩ := SuiteProgress.cut_follow hstop hmoves
  obtain ⟨result, hresult, hall⟩ := stopsAt_of_done hsound hcut hdone total
  exact ⟨moves, result, cut, hmoves, hwithin, hresult, hall⟩

end SuiteRun
end StateCheck
