import StateCheck.Proofs.Machine.Closed
/-!
What the loader has read when it gives a result.

One lemma for each part of a document says where the parts of the result come from: the start and
the states of a scope (`Load.scope_ok`), the states of an object (`Load.states_ok`), the branches of
a Parallel state (`Load.branches_ok`), and what stands in the body of a state of each kind
(`Load.Reads`).
-/
namespace StateCheck
set_option autoImplicit false

namespace Load

theorem inState_eq_ok_iff {α : Type} {name : String} {load : Load α} {a : α} :
    inState name load = .ok a ↔ load = .ok a := by
  cases load with
  | error e => exact ⟨nofun, nofun⟩
  | ok b => exact ⟨fun h => by cases h; rfl, fun h => by cases h; rfl⟩

/-! ## Fields -/

theorem indexed_map {ε α β : Type} {f : Nat → Json → Except ε α} {field : Json → Option β}
    {part : α → β} (hf : ∀ i v a, f i v = .ok a → field v = some (part a)) {i : Nat}
    {items : List Json} {read : List α} (h : indexed f i items = .ok read) :
    items.map field = read.map fun a => some (part a) := by
  induction items generalizing i read with
  | nil =>
    cases h
    rfl
  | cons v rest ih =>
    obtain ⟨a, ha, h⟩ := bind_eq_ok_iff.mp h
    obtain ⟨more, hmore, h⟩ := bind_eq_ok_iff.mp h
    cases h
    rw [List.map_cons, List.map_cons, hf i v a ha, ih hmore]

theorem mem_indexed_iff {ε α β : Type} {f : Nat → Json → Except ε α} {field : Json → Option β}
    {part : α → β} (hf : ∀ i v a, f i v = .ok a → field v = some (part a)) {i : Nat}
    {items : List Json} {read : List α} (h : indexed f i items = .ok read) {b : β} :
    b ∈ read.map part ↔ ∃ v ∈ items, field v = some b := by
  have hmap : some b ∈ items.map field ↔ some b ∈ read.map fun a => some (part a) := by
    rw [indexed_map hf h]
  rw [List.mem_map, List.mem_map] at hmap
  rw [List.mem_map, hmap]
  simp

theorem transition_next_iff {body : Json} {t : Transition} (h : transition body = .ok t)
    {target : String} : t = .next target ↔ body.getString? "Next" = some target := by
  simp only [transition] at h
  split at h
  · rename_i next _ hnext _
    cases h
    rw [hnext]
    simp
  · rename_i hnext _
    cases h
    rw [hnext]
    simp
  · cases h
  · cases h

theorem catcher_next (i : Nat) (v : Json) (c : Catcher) (h : catcher i v = .ok c) :
    v.getString? "Next" = some c.next := by
  unfold catcher at h
  split at h
  · cases h
  · rename_i next hnext
    obtain ⟨errors, -, h⟩ := bind_eq_ok_iff.mp h
    obtain ⟨resultPath, -, h⟩ := bind_eq_ok_iff.mp h
    cases h
    exact hnext

theorem choiceRule_next (i : Nat) (v : Json) (rule : ChoiceRule)
    (h : choiceRule i v = .ok rule) : v.getString? "Next" = some rule.next := by
  unfold choiceRule at h
  split at h
  · cases h
  · rename_i next hnext
    obtain ⟨condition, -, h⟩ := bind_eq_ok_iff.mp h
    cases h
    exact hnext

theorem mem_catchers_iff {body : Json} {cs : List Catcher} (h : catchers body = .ok cs)
    {target : String} : target ∈ cs.map (·.next) ↔ ∃ entries,
      body.get? "Catch" = some (.arr entries) ∧
        ∃ entry ∈ entries, entry.getString? "Next" = some target := by
  unfold catchers at h
  split at h
  · rename_i hnone
    cases h
    simp [hnone]
  · rename_i v hv
    split at h
    · cases h
    · rename_i items hitems
      have harr : v = .arr items := by
        cases v <;> cases hitems
        rfl
      rw [mem_indexed_iff catcher_next h, hv, harr]
      simp

/-! ## States without machines, and apart from them -/

theorem pass_ok {body : Json} {s : PassSpec} (h : pass body = .ok s) :
    transition body = .ok s.transition := by
  simp only [pass, bind_eq_ok_iff] at h
  obtain ⟨io, -, resultPath, -, t, ht, h⟩ := h
  cases h
  exact ht

theorem task_ok {body : Json} {s : TaskSpec} (h : task body = .ok s) :
    catchers body = .ok s.catchers ∧ transition body = .ok s.transition := by
  unfold task at h
  split at h
  · cases h
  · simp only [bind_eq_ok_iff] at h
    obtain ⟨io, -, resultPath, -, retriers, -, cs, hcs, t, ht, h⟩ := h
    cases h
    exact ⟨hcs, ht⟩

theorem choice_ok {body : Json} {s : ChoiceSpec} (h : choice body = .ok s) : ∃ rules,
    body.get? "Choices" = some (.arr rules) ∧ indexed choiceRule 0 rules = .ok s.choices ∧
      s.default = body.getString? "Default" := by
  unfold choice at h
  split at h
  · cases h
  · rename_i rules hrules
    obtain ⟨v, hv, harr⟩ := Option.bind_eq_some_iff.mp hrules
    have hv' : v = .arr rules := by
      cases v <;> cases harr
      rfl
    split at h
    · cases h
    · split at h
      · cases h
      · obtain ⟨choices, hchoices, h⟩ := bind_eq_ok_iff.mp h
        obtain ⟨io, -, h⟩ := bind_eq_ok_iff.mp h
        cases h
        exact ⟨rules, by rw [hv, hv'], hchoices, rfl⟩

theorem wait_ok {body : Json} {s : WaitSpec} (h : wait body = .ok s) :
    transition body = .ok s.transition := by
  simp only [wait, bind_eq_ok_iff] at h
  obtain ⟨io, -, duration, -, t, ht, h⟩ := h
  cases h
  exact ht

theorem map_ok {mode : ProcessorMode} {body : Json} {s : MapSpec} (h : map mode body = .ok s) :
    catchers body = .ok s.catchers ∧ transition body = .ok s.transition := by
  simp only [map, bind_eq_ok_iff] at h
  obtain ⟨batcher, -, io, -, resultPath, -, retriers, -, cs, hcs, t, ht, h⟩ := h
  cases h
  exact ⟨hcs, ht⟩

theorem parallel_ok {body : Json} {s : ParallelSpec} (h : parallel body = .ok s) :
    catchers body = .ok s.catchers ∧ transition body = .ok s.transition := by
  simp only [parallel, bind_eq_ok_iff] at h
  obtain ⟨io, -, resultPath, -, retriers, -, cs, hcs, t, ht, h⟩ := h
  cases h
  exact ⟨hcs, ht⟩

/-! ## States -/

/-- What stands in the body of a state, by its type, for the kind of state that it is loaded as. -/
inductive Reads (name : String) (body : Json) : String → StateKind → Prop
  | pass {s : PassSpec} : Load.pass body = .ok s → Reads name body "Pass" (.pass s)
  | task {s : TaskSpec} : Load.task body = .ok s → Reads name body "Task" (.task s)
  | choice {s : ChoiceSpec} : Load.choice body = .ok s → Reads name body "Choice" (.choice s)
  | wait {s : WaitSpec} : Load.wait body = .ok s → Reads name body "Wait" (.wait s)
  | succeed {s : SucceedSpec} : Load.succeed body = .ok s → Reads name body "Succeed" (.succeed s)
  | fail : Reads name body "Fail" (.fail (Load.fail body))
  | map {processor : Json} {mode : ProcessorMode} {machine : Machine} {s : MapSpec} :
      processorField? body = some processor → scope (.processor name) processor = .ok machine →
      Load.map mode body = .ok s → Reads name body "Map" (.map s machine)
  | parallel {items : List Json} {machines : List Machine} {s : ParallelSpec} :
      body.get? "Branches" = some (.arr items) → branches name 0 items = .ok machines →
      Load.parallel body = .ok s → Reads name body "Parallel" (.parallel s machines)

theorem reads_of_stateKind {name typeName : String} {body : Json} {kind : StateKind}
    (h : stateKind name typeName body = .ok kind) : Reads name body typeName kind := by
  unfold stateKind at h
  split at h
  · obtain ⟨s, hs, rfl⟩ := map_eq_ok_iff.mp h
    exact .pass (inState_eq_ok_iff.mp hs)
  · obtain ⟨s, hs, rfl⟩ := map_eq_ok_iff.mp h
    exact .task (inState_eq_ok_iff.mp hs)
  · obtain ⟨s, hs, rfl⟩ := map_eq_ok_iff.mp h
    exact .choice (inState_eq_ok_iff.mp hs)
  · obtain ⟨s, hs, rfl⟩ := map_eq_ok_iff.mp h
    exact .wait (inState_eq_ok_iff.mp hs)
  · obtain ⟨s, hs, rfl⟩ := map_eq_ok_iff.mp h
    exact .succeed (inState_eq_ok_iff.mp hs)
  · cases h
    exact .fail
  · split at h
    · cases h
    · rename_i processor hprocessor
      obtain ⟨mode, -, h⟩ := bind_eq_ok_iff.mp h
      obtain ⟨machine, hmachine, h⟩ := bind_eq_ok_iff.mp h
      obtain ⟨s, hs, h⟩ := bind_eq_ok_iff.mp h
      cases h
      exact .map hprocessor hmachine (inState_eq_ok_iff.mp hs)
  · split at h
    · rename_i items hitems
      split at h
      · cases h
      · obtain ⟨machines, hmachines, h⟩ := bind_eq_ok_iff.mp h
        obtain ⟨s, hs, h⟩ := bind_eq_ok_iff.mp h
        cases h
        exact .parallel hitems hmachines (inState_eq_ok_iff.mp hs)
    · cases h
  · cases h

theorem state_ok {name : String} {body : Json} {st : State} (h : state name body = .ok st) :
    st.name = name ∧
      ∃ typeName, body.getString? "Type" = some typeName ∧ Reads name body typeName st.kind := by
  rw [state] at h
  split at h
  · cases h
  · split at h
    · cases h
    · rename_i typeName htype
      obtain ⟨kind, hkind, h⟩ := bind_eq_ok_iff.mp h
      cases h
      exact ⟨rfl, typeName, htype, reads_of_stateKind hkind⟩

/-! ## Scopes -/

theorem scope_ok {label : ScopeLabel} {v : Json} {m : Machine} (h : scope label v = .ok m) :
    v.getString? "StartAt" = some m.startAt ∧
      ∃ fields, v.get? "States" = some (.obj fields) ∧ states fields = .ok m.states := by
  unfold scope at h
  split at h
  · cases h
  · rename_i startAt hstart
    split at h
    · rename_i fields hfields
      obtain ⟨sts, hsts, hm⟩ := bind_eq_ok_iff.mp h
      cases hm
      exact ⟨hstart, fields, hfields, hsts⟩
    · cases h

theorem states_ok {fields : List (String × Json)} {sts : List State}
    (h : states fields = .ok sts) : sts.map (·.name) = Fields.keys fields ∧
      (∀ st ∈ sts, ∃ body, (st.name, body) ∈ fields ∧ state st.name body = .ok st) ∧
      ∀ name body, (name, body) ∈ fields → ∃ st ∈ sts, state name body = .ok st := by
  induction fields generalizing sts with
  | nil =>
    rw [states] at h
    cases h
    simp [Fields.keys]
  | cons entry rest ih =>
    obtain ⟨name, body⟩ := entry
    rw [states] at h
    obtain ⟨st, hst, h⟩ := bind_eq_ok_iff.mp h
    obtain ⟨more, hmore, h⟩ := bind_eq_ok_iff.mp h
    cases h
    have hname : st.name = name := (state_ok hst).1
    obtain ⟨hnames, hbodies, hstates⟩ := ih hmore
    refine ⟨by rw [List.map_cons, hname, hnames]; rfl, ?_, ?_⟩
    · rintro st' (_ | ⟨_, hst'⟩)
      · exact ⟨body, by rw [hname]; exact List.mem_cons_self .., by rw [hname]; exact hst⟩
      · obtain ⟨body', hmem, hbody'⟩ := hbodies st' hst'
        exact ⟨body', List.mem_cons_of_mem _ hmem, hbody'⟩
    · rintro name' body' (_ | ⟨_, hmem⟩)
      · exact ⟨st, List.mem_cons_self .., hst⟩
      · obtain ⟨st', hst', hload⟩ := hstates name' body' hmem
        exact ⟨st', List.mem_cons_of_mem _ hst', hload⟩

theorem branches_ok {name : String} {items : List Json} {index : Nat} {machines : List Machine}
    (h : branches name index items = .ok machines) : machines.length = items.length ∧
      ∀ i v, items[i]? = some v → ∃ m, machines[i]? = some m ∧
        scope (.branch name (index + i)) v = .ok m := by
  induction items generalizing index machines with
  | nil =>
    rw [branches] at h
    cases h
    exact ⟨rfl, by simp⟩
  | cons v rest ih =>
    rw [branches] at h
    obtain ⟨m, hm, h⟩ := bind_eq_ok_iff.mp h
    obtain ⟨more, hmore, h⟩ := bind_eq_ok_iff.mp h
    cases h
    obtain ⟨hlength, hbranches⟩ := ih hmore
    refine ⟨by rw [List.length_cons, List.length_cons, hlength], fun i w hw => ?_⟩
    cases i with
    | zero =>
      cases hw
      exact ⟨m, rfl, hm⟩
    | succ i =>
      obtain ⟨m', hm', hscope⟩ := hbranches i w hw
      refine ⟨m', hm', ?_⟩
      rw [show index + (i + 1) = index + 1 + i by omega]
      exact hscope

theorem branch_ok {name : String} {items : List Json} {machines : List Machine}
    (h : branches name 0 items = .ok machines) {i : Nat} {m : Machine}
    (hm : machines[i]? = some m) : ∃ v, items[i]? = some v ∧ scope (.branch name i) v = .ok m := by
  obtain ⟨hlength, hbranches⟩ := branches_ok h
  have hlt : i < items.length := by
    rw [← hlength]
    exact (List.getElem?_eq_some_iff.mp hm).1
  have hitem : items[i]? = some items[i] := List.getElem?_eq_getElem hlt
  obtain ⟨m', hm', hscope⟩ := hbranches i _ hitem
  rw [hm] at hm'
  cases hm'
  rw [Nat.zero_add] at hscope
  exact ⟨items[i], hitem, hscope⟩

end Load
end StateCheck
