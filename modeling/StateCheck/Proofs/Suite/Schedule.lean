import Mathlib.Data.List.Basic
import StateCheck.Suite.Schedule
/-!
Schedules of a suite.

Each move of a schedule is one of seven steps (`SuiteProgress.Step`). They keep every case that the
spawner has passed at work or with its result (`SuiteProgress.Sound`), and each of them leaves fewer
moves (`SuiteProgress.left`). The worker that goes first can always move until the run is done
(`SuiteProgress.after?_workerFirst`), so a whole run gets done (`SuiteRun.finished_follows`).

The permits that are out stay within those of the suite. That the semaphore which hands them out can
be made takes a bound on their number (`SuiteRun.maxPermits`).
-/
namespace StateCheck
set_option autoImplicit false

variable {r : SuiteRun} {p p' : SuiteProgress}

namespace SuiteRun

theorem permits_pos (r : SuiteRun) : 0 < r.permits := by
  unfold permits
  omega

/-- The case of the number is one that is run unless the run is cancelled. -/
def Eligible (r : SuiteRun) (index : Nat) (case : TestCase) : Prop :=
  r.cases[index]? = some case ∧ r.skipReason? case = none

/-- What a case may end with: with the reason why it is not to run, else with its run. Only in a
cancelled run it may also be passed over. -/
def Ends (r : SuiteRun) (cancelled : Bool) (index : Nat) (run : CaseRun) : Prop :=
  ∃ case, r.cases[index]? = some case ∧
    match r.skipReason? case with
    | some reason => run = .skipped case reason
    | none => run = r.runAlone index case ∨ (cancelled = true ∧ run = .skipped case "cancelled")

theorem Ends.of_cancelled {index : Nat} {run : CaseRun} {cancelled : Bool} (more : Bool)
    (h : r.Ends cancelled index run) : r.Ends (cancelled || more) index run := by
  obtain ⟨case, hcase, hrun⟩ := h
  refine ⟨case, hcase, ?_⟩
  cases hreason : r.skipReason? case with
  | some reason =>
    rw [hreason] at hrun
    exact hrun
  | none =>
    rw [hreason] at hrun
    obtain hrun | ⟨hcancelled, hrun⟩ := hrun
    · exact .inl hrun
    · exact .inr ⟨by rw [hcancelled, Bool.true_or], hrun⟩

theorem Eligible.ends {index : Nat} {case : TestCase} (h : r.Eligible index case)
    (cancelled : Bool) : r.Ends cancelled index (r.runAlone index case) := by
  refine ⟨case, h.1, ?_⟩
  rw [h.2]
  exact .inl rfl

end SuiteRun

namespace SuiteProgress

/-! ## Steps -/

/-- What a move can do. -/
inductive Step (r : SuiteRun) (p : SuiteProgress) : SuiteProgress → Prop
  | skip {case : TestCase} {reason : String} (hcase : r.cases[p.next]? = some case)
      (hreason : r.skipReason? case = some reason) : Step r p (p.skip case reason)
  | acquire {case : TestCase} (hcase : r.cases[p.next]? = some case)
      (hreason : r.skipReason? case = none) (hfree : p.holding = false)
      (hpermits : p.permitsOut < r.permits) : Step r p { p with holding := true }
  | cancel {case : TestCase} (hcase : r.cases[p.next]? = some case)
      (hreason : r.skipReason? case = none) (hholding : p.holding = true)
      (hcancelled : p.cancelled = true) : Step r p (p.skip case "cancelled")
  | start {case : TestCase} (hcase : r.cases[p.next]? = some case)
      (hreason : r.skipReason? case = none) (hholding : p.holding = true)
      (hcancelled : p.cancelled = false) :
      Step r p { p with next := p.next + 1, holding := false, running := p.running ++ [p.next] }
  | finish {index : Nat} {case : TestCase} (hcase : r.cases[index]? = some case)
      (hrunning : index ∈ p.running) :
      Step r p { p with
        running := p.running.erase index
        leaving := p.leaving ++ [(index, r.runAlone index case)]
        cancelled := p.cancelled || r.stops (r.runAlone index case) }
  | release {index : Nat} {done : CaseRun} (hleaving : p.leaving.lookup index = some done) :
      Step r p { p with
        leaving := p.leaving.filter (·.1 != index)
        exited := p.exited ++ [(index, done)] }
  | join {index : Nat} {done : CaseRun} (hnext : p.next = r.cases.length)
      (hexited : p.exited.lookup index = some done) :
      Step r p { p with
        exited := p.exited.filter (·.1 != index)
        slots := p.slots.set index (some done) }

theorem spawn?_step {case : TestCase} (hcase : r.cases[p.next]? = some case)
    (h : p.spawn? r case = some p') : Step r p p' := by
  unfold spawn? at h
  cases hreason : r.skipReason? case with
  | some reason =>
    rw [hreason] at h
    cases h
    exact .skip hcase hreason
  | none =>
    rw [hreason] at h
    dsimp only at h
    by_cases hholding : p.holding = true
    · rw [if_neg (by simp [hholding])] at h
      by_cases hcancelled : p.cancelled = true
      · rw [if_pos hcancelled] at h
        cases h
        exact .cancel hcase hreason hholding hcancelled
      · rw [if_neg hcancelled] at h
        cases h
        exact .start hcase hreason hholding (by simpa using hcancelled)
    · rw [if_pos (by simp [hholding])] at h
      by_cases hpermits : p.permitsOut < r.permits
      · rw [if_pos hpermits] at h
        cases h
        exact .acquire hcase hreason (by simpa using hholding) hpermits
      · rw [if_neg hpermits] at h
        cases h

theorem after?_step {move : SuiteMove} (h : p.after? r move = some p') : Step r p p' := by
  cases move with
  | spawn =>
    obtain ⟨case, hcase, h⟩ := Option.bind_eq_some_iff.mp h
    exact spawn?_step hcase h
  | finish index =>
    rw [after?] at h
    split at h
    · rename_i case hcase
      split at h
      · rename_i hrunning
        cases h
        exact .finish hcase hrunning
      · cases h
    · cases h
  | release index =>
    rw [after?] at h
    split at h
    · rename_i done hleaving
      cases h
      exact .release hleaving
    · cases h
  | join index =>
    rw [after?] at h
    split at h
    · rename_i hnext
      split at h
      · rename_i done hexited
        cases h
        exact .join hnext hexited
      · cases h
    · cases h

/-! ## What every step keeps -/

/-- The started cases that have no result yet. -/
def atWork (p : SuiteProgress) : List Nat :=
  p.running ++ p.leaving.map (·.1) ++ p.exited.map (·.1)

theorem mem_atWork {i : Nat} :
    i ∈ p.atWork ↔ i ∈ p.running ∨ (∃ run, (i, run) ∈ p.leaving) ∨ ∃ run, (i, run) ∈ p.exited := by
  simp [atWork]

theorem mem_atWork_finish {index i : Nat} (hrunning : index ∈ p.running) (done : CaseRun)
    (cancelled : Bool) :
    i ∈ atWork { p with
      running := p.running.erase index, leaving := p.leaving ++ [(index, done)], cancelled } ↔
      i ∈ p.atWork := by
  by_cases heq : i = index
  · subst heq
    simp [mem_atWork, hrunning]
  · simp [mem_atWork, heq, List.mem_erase_of_ne heq]

theorem mem_atWork_release {index i : Nat} {done : CaseRun} (hmem : (index, done) ∈ p.leaving) :
    i ∈ atWork { p with
      leaving := p.leaving.filter (·.1 != index), exited := p.exited ++ [(index, done)] } ↔
      i ∈ p.atWork := by
  by_cases heq : i = index
  · subst heq
    have hleaving : ∃ run, (i, run) ∈ p.leaving := ⟨done, hmem⟩
    simp [mem_atWork, hleaving]
  · simp [mem_atWork, heq]

theorem mem_atWork_join {index i : Nat} (hne : i ≠ index) (slots : List (Option CaseRun)) :
    i ∈ atWork { p with exited := p.exited.filter (·.1 != index), slots } ↔ i ∈ p.atWork := by
  simp [mem_atWork, hne]

/-- The cases at work are to run, and every case that the spawner has passed is at work or has a
result that it may end with. -/
structure Sound (r : SuiteRun) (p : SuiteProgress) : Prop where
  next_le : p.next ≤ r.cases.length
  holding : p.holding = true → ∃ case, r.Eligible p.next case
  length : p.slots.length = r.cases.length
  running : ∀ i ∈ p.running, ∃ case, r.Eligible i case
  finished : ∀ e ∈ p.leaving ++ p.exited, ∃ case, r.Eligible e.1 case ∧ e.2 = r.runAlone e.1 case
  waiting : ∀ i : Nat, p.slots[i]? = some none → p.next ≤ i ∨ i ∈ p.atWork
  settled : ∀ (i : Nat) run, p.slots[i]? = some (some run) → r.Ends p.cancelled i run

theorem sound_start (r : SuiteRun) (cancelled : Bool) : Sound r (r.start cancelled) where
  next_le := Nat.zero_le _
  holding hholding := by cases hholding
  length := List.length_map ..
  running _ hi := absurd hi List.not_mem_nil
  finished _ he := absurd he List.not_mem_nil
  waiting i _ := .inl (Nat.zero_le i)
  settled i run h := by
    obtain ⟨case, -, hnone⟩ := List.mem_map.mp (List.mem_of_getElem? h)
    cases hnone

theorem getElem?_set_some {slots : List (Option CaseRun)} {done : CaseRun} {i j : Nat}
    {x : Option CaseRun} (h : (slots.set j (some done))[i]? = some x) :
    (i = j ∧ x = some done) ∨ (i ≠ j ∧ slots[i]? = some x) := by
  by_cases hij : i = j
  · subst hij
    by_cases hlt : i < slots.length
    · rw [List.getElem?_set_self hlt] at h
      exact .inl ⟨rfl, (Option.some.inj h).symm⟩
    · simp [hlt] at h
  · rw [List.getElem?_set_ne (fun e => hij e.symm)] at h
    exact .inr ⟨hij, h⟩

theorem lt_of_case {index : Nat} {case : TestCase} (h : r.cases[index]? = some case) :
    index < r.cases.length := (List.getElem?_eq_some_iff.mp h).1

theorem mem_of_lookup {entries : List (Nat × CaseRun)} {index : Nat} {done : CaseRun}
    (h : entries.lookup index = some done) : (index, done) ∈ entries := by
  obtain ⟨before, after, rfl, -⟩ := List.lookup_eq_some_iff.mp h
  simp

theorem Sound.skip (h : Sound r p) {case : TestCase} (hcase : r.cases[p.next]? = some case)
    {reason : String} (hends : r.Ends p.cancelled p.next (.skipped case reason)) :
    Sound r (p.skip case reason) where
  next_le := lt_of_case hcase
  holding := nofun
  length := by rw [SuiteProgress.skip, List.length_set, h.length]
  running := h.running
  finished := h.finished
  waiting i hi := by
    rcases getElem?_set_some hi with ⟨-, hsome⟩ | ⟨hne, hi⟩
    · cases hsome
    · obtain hle | hwork := h.waiting i hi
      · exact .inl (Nat.lt_of_le_of_ne hle hne.symm)
      · exact .inr hwork
  settled i run hi := by
    rcases getElem?_set_some hi with ⟨rfl, hsome⟩ | ⟨-, hi⟩
    · cases hsome
      exact hends
    · exact h.settled i run hi

theorem Sound.started (h : Sound r p) {case : TestCase} (helig : r.Eligible p.next case) :
    Sound r { p with
      next := p.next + 1, holding := false, running := p.running ++ [p.next] } := by
  refine { h with
    next_le := lt_of_case helig.1
    holding := nofun
    running := fun i hi => ?_
    waiting := fun i hi => ?_ }
  · rcases List.mem_append.mp hi with hi | hi
    · exact h.running i hi
    · obtain rfl := List.mem_singleton.mp hi
      exact ⟨case, helig⟩
  · obtain hle | hwork := h.waiting i hi
    · by_cases heq : p.next = i
      · subst heq
        exact .inr (by simp [atWork])
      · exact .inl (Nat.lt_of_le_of_ne hle heq)
    · rw [mem_atWork] at hwork ⊢
      exact .inr (hwork.imp_left (List.mem_append_left _))

theorem Sound.finish (h : Sound r p) {index : Nat} {case : TestCase}
    (helig : r.Eligible index case) (hrunning : index ∈ p.running) :
    Sound r { p with
      running := p.running.erase index
      leaving := p.leaving ++ [(index, r.runAlone index case)]
      cancelled := p.cancelled || r.stops (r.runAlone index case) } := by
  refine { h with
    running := fun i hi => h.running i (List.mem_of_mem_erase hi)
    finished := fun e he => ?_
    waiting := fun i hi => (h.waiting i hi).imp_right (mem_atWork_finish hrunning _ _).mpr
    settled := fun i run hi => (h.settled i run hi).of_cancelled _ }
  simp only [List.mem_append, List.mem_singleton] at he
  obtain (he | rfl) | he := he
  · exact h.finished e (List.mem_append_left _ he)
  · exact ⟨case, helig, rfl⟩
  · exact h.finished e (List.mem_append_right _ he)

theorem Sound.release (h : Sound r p) {index : Nat} {done : CaseRun}
    (hmem : (index, done) ∈ p.leaving) :
    Sound r { p with
      leaving := p.leaving.filter (·.1 != index)
      exited := p.exited ++ [(index, done)] } := by
  refine { h with
    finished := fun e he => ?_
    waiting := fun i hi => (h.waiting i hi).imp_right (mem_atWork_release hmem).mpr }
  simp only [List.mem_append, List.mem_filter, List.mem_singleton] at he
  obtain ⟨he, -⟩ | he | rfl := he
  · exact h.finished e (List.mem_append_left _ he)
  · exact h.finished e (List.mem_append_right _ he)
  · exact h.finished _ (List.mem_append_left _ hmem)

theorem Sound.join (h : Sound r p) {index : Nat} {done : CaseRun}
    (hmem : (index, done) ∈ p.exited) :
    Sound r { p with
      exited := p.exited.filter (·.1 != index)
      slots := p.slots.set index (some done) } := by
  obtain ⟨case, helig, rfl⟩ : ∃ case, r.Eligible index case ∧ done = r.runAlone index case :=
    h.finished _ (List.mem_append_right _ hmem)
  refine { h with
    length := by rw [List.length_set, h.length]
    finished := fun e he => ?_
    waiting := fun i hi => ?_
    settled := fun i run hi => ?_ }
  · rcases List.mem_append.mp he with he | he
    · exact h.finished e (List.mem_append_left _ he)
    · exact h.finished e (List.mem_append_right _ (List.mem_of_mem_filter he))
  · rcases getElem?_set_some hi with ⟨-, hsome⟩ | ⟨hne, hi⟩
    · cases hsome
    · exact (h.waiting i hi).imp_right (mem_atWork_join hne _).mpr
  · rcases getElem?_set_some hi with ⟨rfl, hsome⟩ | ⟨-, hi⟩
    · cases hsome
      exact helig.ends _
    · exact h.settled i run hi

theorem Step.sound (h : Sound r p) (hstep : Step r p p') : Sound r p' := by
  cases hstep with
  | skip hcase hreason =>
    refine h.skip hcase ⟨_, hcase, ?_⟩
    rw [hreason]
  | acquire hcase hreason hfree hpermits =>
    exact { h with holding := fun _ => ⟨_, hcase, hreason⟩ }
  | cancel hcase hreason hholding hcancelled =>
    refine h.skip hcase ⟨_, hcase, ?_⟩
    rw [hreason]
    exact .inr ⟨hcancelled, rfl⟩
  | start hcase hreason hholding hcancelled => exact h.started ⟨hcase, hreason⟩
  | finish hcase hrunning =>
    obtain ⟨case', helig⟩ := h.running _ hrunning
    obtain rfl := Option.some.inj (helig.1.symm.trans hcase)
    exact h.finish helig hrunning
  | release hleaving => exact h.release (mem_of_lookup hleaving)
  | join hnext hexited => exact h.join (mem_of_lookup hexited)

/-! ## How many moves are left -/

/-- The moves that the cases still take at most. -/
def left (r : SuiteRun) (p : SuiteProgress) : Nat :=
  SuiteRun.movesPerCase * (r.cases.length - p.next) + 3 * p.running.length +
    2 * p.leaving.length + p.exited.length - p.holding.toNat

theorem length_filter_lt {entries : List (Nat × CaseRun)} {index : Nat} {done : CaseRun}
    (h : entries.lookup index = some done) :
    (entries.filter (·.1 != index)).length < entries.length :=
  List.length_filter_lt_length_iff_exists.mpr ⟨_, mem_of_lookup h, by simp⟩

theorem Step.left_lt (h : Sound r p) (hstep : Step r p p') : p'.left r < p.left r := by
  have hholds := Bool.toNat_le p.holding
  cases hstep with
  | skip hcase hreason =>
    have hlt := lt_of_case hcase
    simp only [left, SuiteProgress.skip, SuiteRun.movesPerCase, Bool.toNat_false]
    omega
  | acquire hcase hreason hfree hpermits =>
    have hlt := lt_of_case hcase
    simp only [left, hfree, SuiteRun.movesPerCase, Bool.toNat_false, Bool.toNat_true]
    omega
  | cancel hcase hreason hholding hcancelled =>
    have hlt := lt_of_case hcase
    simp only [left, SuiteProgress.skip, SuiteRun.movesPerCase, Bool.toNat_false]
    omega
  | start hcase hreason hholding hcancelled =>
    have hlt := lt_of_case hcase
    simp only [left, SuiteRun.movesPerCase, Bool.toNat_false, List.length_append,
      List.length_singleton]
    omega
  | finish hcase hrunning =>
    have hlength := List.length_erase_of_mem hrunning
    have hpos := List.length_pos_of_mem hrunning
    simp only [left, hlength, List.length_append, List.length_singleton]
    omega
  | release hleaving =>
    have hlength := length_filter_lt hleaving
    simp only [left, List.length_append, List.length_singleton]
    omega
  | join hnext hexited =>
    have hlength := length_filter_lt hexited
    -- The spawner is through and holds no permit, so none is taken off what is left.
    have hfree : p.holding = false := by
      by_contra hholding
      obtain ⟨case, hcase, -⟩ := h.holding (by simpa using hholding)
      have hlt := lt_of_case hcase
      omega
    simp only [left, hfree, Bool.toNat_false]
    omega

/-! ## Permits -/

theorem Step.permitsOut_le (hstep : Step r p p') (h : p.permitsOut ≤ r.permits) :
    p'.permitsOut ≤ r.permits := by
  cases hstep with
  | skip hcase hreason =>
    simp only [permitsOut, SuiteProgress.skip, Bool.false_eq_true, if_false] at h ⊢
    omega
  | acquire hcase hreason hfree hpermits =>
    simp only [permitsOut, hfree, Bool.false_eq_true, if_false, if_true] at hpermits ⊢
    omega
  | cancel hcase hreason hholding hcancelled =>
    simp only [permitsOut, SuiteProgress.skip, Bool.false_eq_true, if_false] at h ⊢
    omega
  | start hcase hreason hholding hcancelled =>
    simp only [permitsOut, hholding, List.length_append, List.length_singleton,
      Bool.false_eq_true, if_false, if_true] at h ⊢
    omega
  | finish hcase hrunning =>
    have hlength := List.length_erase_of_mem hrunning
    have hpos := List.length_pos_of_mem hrunning
    simp only [permitsOut, hlength, List.length_append, List.length_singleton] at h ⊢
    omega
  | release hleaving =>
    have hlength := length_filter_lt hleaving
    simp only [permitsOut] at h ⊢
    omega
  | join hnext hexited => exact h

theorem permitsOut_start (r : SuiteRun) (cancelled : Bool) :
    (r.start cancelled).permitsOut ≤ r.permits := Nat.zero_le _

/-! ## Schedules -/

theorem follow_keeps {P : SuiteProgress → Prop} (hstep : ∀ q q', Step r q q' → P q → P q')
    {moves : List SuiteMove} (h : P p) (hmoves : follow? r moves p = some p') : P p' := by
  induction moves generalizing p with
  | nil =>
    cases hmoves
    exact h
  | cons move rest ih =>
    obtain ⟨q, hq, hrest⟩ := Option.bind_eq_some_iff.mp hmoves
    exact ih (hstep p q (after?_step hq) h) hrest

theorem sound_follow {moves : List SuiteMove} (h : Sound r p)
    (hmoves : follow? r moves p = some p') : Sound r p' :=
  follow_keeps (fun _ _ hstep hq => hstep.sound hq) h hmoves

theorem permitsOut_follow {cancelled : Bool} {moves : List SuiteMove}
    (hmoves : follow? r moves (r.start cancelled) = some p) : p.permitsOut ≤ r.permits :=
  follow_keeps (fun _ _ hstep hq => hstep.permitsOut_le hq) (permitsOut_start r cancelled) hmoves

theorem length_follow {moves : List SuiteMove} (h : Sound r p) (hmoves : follow? r moves p = some p') :
    moves.length + p'.left r ≤ p.left r := by
  induction moves generalizing p with
  | nil =>
    cases hmoves
    simp
  | cons move rest ih =>
    obtain ⟨q, hq, hrest⟩ := Option.bind_eq_some_iff.mp hmoves
    have hlt := (after?_step hq).left_lt h
    have hle := ih ((after?_step hq).sound h) hrest
    rw [List.length_cons]
    omega

theorem left_start (r : SuiteRun) (cancelled : Bool) :
    (r.start cancelled).left r = SuiteRun.movesPerCase * r.cases.length := by
  simp [left, SuiteRun.start]

theorem isDone_iff : p.isDone r = true ↔
    p.next = r.cases.length ∧ p.running = [] ∧ p.leaving = [] ∧ p.exited = [] := by
  simp [isDone, and_assoc]

theorem spawn?_isSome (hidle : p.running = []) (hleaving : p.leaving = []) (case : TestCase) :
    ∃ q, p.spawn? r case = some q := by
  have hpermits : p.holding = false → p.permitsOut < r.permits := by
    intro hholding
    simpa [permitsOut, hidle, hleaving, hholding] using r.permits_pos
  unfold spawn?
  cases r.skipReason? case with
  | some reason => exact ⟨_, rfl⟩
  | none =>
    dsimp only
    by_cases hholding : p.holding = true
    · by_cases hcancelled : p.cancelled = true
      · simp [hholding, hcancelled]
      · simp [hholding, hcancelled]
    · have hfree : p.holding = false := by simpa using hholding
      simp [hfree, hpermits hfree]

/-- As long as the run is not done, the move of the worker that goes first is possible. -/
theorem after?_workerFirst (h : Sound r p) (hdone : p.isDone r = false) :
    ∃ q, p.after? r (p.workerFirst r) = some q := by
  -- With nobody at work no permit is out, so the spawner can go on.
  have hspawn : p.running = [] → p.leaving = [] → p.next < r.cases.length →
      ∃ q, p.after? r .spawn = some q := by
    intro hrunning hleaving hlt
    obtain ⟨q, hq⟩ := spawn?_isSome (r := r) hrunning hleaving r.cases[p.next]
    exact ⟨q, by rw [after?, List.getElem?_eq_getElem hlt]; exact hq⟩
  have hlast : ¬p.next < r.cases.length → p.next = r.cases.length :=
    fun hlt => Nat.le_antisymm h.next_le (Nat.le_of_not_lt hlt)
  cases hleaving : p.leaving with
  | cons first rest =>
    obtain ⟨index, done⟩ := first
    simp [workerFirst, after?, hleaving, List.lookup_cons_self]
  | nil =>
    cases hrunning : p.running with
    | cons index rest =>
      have hmem : index ∈ p.running := hrunning ▸ List.mem_cons_self ..
      obtain ⟨case, hcase, -⟩ := h.running index hmem
      simp [workerFirst, after?, hleaving, hrunning, hcase]
    | nil =>
      by_cases hlt : p.next < r.cases.length
      · cases hexited : p.exited <;>
          simpa [workerFirst, hleaving, hrunning, hexited, hlt] using hspawn hrunning hleaving hlt
      · have hnext := hlast hlt
        cases hexited : p.exited with
        | nil =>
          have hisDone := isDone_iff.mpr ⟨hnext, hrunning, hleaving, hexited⟩
          rw [hdone] at hisDone
          cases hisDone
        | cons first rest =>
          obtain ⟨index, done⟩ := first
          simp [workerFirst, after?, hleaving, hrunning, hexited, hnext, List.lookup_cons_self]

theorem isDone_of_stuck (h : Sound r p) (hstuck : p.after? r (p.workerFirst r) = none) :
    p.isDone r = true := by
  by_contra hdone
  obtain ⟨q, hq⟩ := after?_workerFirst h (by simpa using hdone)
  rw [hstuck] at hq
  cases hq

theorem advance_follows {moves : Nat} (h : Sound r p) (hleft : p.left r ≤ moves) :
    (p.advance r moves).isDone r = true ∧ ∃ list, follow? r list p = some (p.advance r moves) := by
  induction moves generalizing p with
  | zero =>
    rw [advance]
    cases hq : p.after? r (p.workerFirst r) with
    | none => exact ⟨isDone_of_stuck h hq, [], rfl⟩
    | some q =>
      have hlt := (after?_step hq).left_lt h
      omega
  | succ moves ih =>
    rw [advance]
    cases hq : p.after? r (p.workerFirst r) with
    | none => exact ⟨isDone_of_stuck h hq, [], rfl⟩
    | some q =>
      have hlt := (after?_step hq).left_lt h
      obtain ⟨hdone, list, hlist⟩ := ih ((after?_step hq).sound h) (by omega)
      exact ⟨hdone, _ :: list, Option.bind_eq_some_iff.mpr ⟨q, hq, hlist⟩⟩

end SuiteProgress

namespace SuiteRun

/-- A whole run is one of the schedules, and it gets done. -/
theorem finished_follows (r : SuiteRun) (cancelled : Bool) :
    (r.finished cancelled).isDone r = true ∧
      ∃ moves, SuiteProgress.follow? r moves (r.start cancelled) = some (r.finished cancelled) :=
  SuiteProgress.advance_follows (SuiteProgress.sound_start r cancelled)
    (Nat.le_of_eq (SuiteProgress.left_start r cancelled))

/-- The most permits that a semaphore can be made with: three of the 64 bits are not for counting. -/
def maxPermits : Nat := (UInt64.size - 1) / 8

/-- Where the semaphore of a suite can be made, a whole run never takes more permits than it has. -/
theorem finished_within (r : SuiteRun) (hsemaphore : r.permits ≤ maxPermits) (cancelled : Bool) :
    (r.finished cancelled).isDone r = true ∧ ∃ moves,
      SuiteProgress.follow? r moves (r.start cancelled) = some (r.finished cancelled) ∧
      ∀ before q, before <+: moves → SuiteProgress.follow? r before (r.start cancelled) = some q →
        q.permitsOut ≤ maxPermits := by
  obtain ⟨hdone, moves, hmoves⟩ := r.finished_follows cancelled
  exact ⟨hdone, moves, hmoves, fun _ _ _ hq =>
    Nat.le_trans (SuiteProgress.permitsOut_follow hq) hsemaphore⟩

end SuiteRun

end StateCheck
