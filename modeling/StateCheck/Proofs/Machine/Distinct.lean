import StateCheck.Proofs.Json.Sorted
import StateCheck.Proofs.Machine.Loaded
/-!
Machines whose states have distinct names.

`Machine.Distinct` says so of a scope and of all scopes inside it. The entries of a JSON object have
distinct keys (`Json.Sorted`), and the states of a scope are the entries of one, so every machine
that is loaded from a document has distinct names (`Machine.distinct_of_ofJson`).
-/
namespace StateCheck
set_option autoImplicit false

/-- The states of the scope have distinct names, and so in every scope inside it. -/
inductive Machine.Distinct : Machine → Prop
  | intro {m : Machine} : m.stateNames.Nodup →
      (∀ st ∈ m.states, ∀ inner ∈ st.kind.scopes, Distinct inner) → Distinct m

theorem Machine.distinct_iff (m : Machine) :
    m.Distinct ↔ m.stateNames.Nodup ∧ ∀ st ∈ m.states, ∀ inner ∈ st.kind.scopes, inner.Distinct :=
  ⟨fun ⟨hnames, hinner⟩ => ⟨hnames, hinner⟩, fun ⟨hnames, hinner⟩ => .intro hnames hinner⟩

theorem Machine.Distinct.state?_name {m : Machine} (h : m.Distinct) {st : State}
    (hst : st ∈ m.states) : m.state? st.name = some st := by
  obtain ⟨hnames, -⟩ := m.distinct_iff.mp h
  rw [Machine.state?, List.find?_eq_some_iff_append]
  obtain ⟨before, after, hsplit⟩ := List.append_of_mem hst
  refine ⟨by simp, before, after, hsplit, fun other hother => ?_⟩
  rw [Machine.stateNames, hsplit, List.map_append, List.nodup_append] at hnames
  have hne := hnames.2.2 other.name (List.mem_map_of_mem hother) st.name
    (List.mem_cons_self ..)
  simpa using hne

/-! ## Loading -/

namespace Load

/-- The machine is loaded from a part of the document. -/
def From (v : Json) (m : Machine) : Prop :=
  ∃ label w, scope label w = .ok m ∧ sizeOf w < sizeOf v ∧ (v.Sorted → w.Sorted)

theorem Reads.loaded_from {name typeName : String} {body : Json} {kind : StateKind}
    (h : Reads name body typeName kind) : ∀ m ∈ kind.scopes, From body m := by
  intro m hm
  cases h with
  | @map processor mode machine s hprocessor hmachine hs =>
    obtain rfl := List.mem_singleton.mp hm
    refine ⟨_, processor, hmachine, sizeOf_processorField_lt hprocessor, fun hsorted => ?_⟩
    unfold processorField? at hprocessor
    split at hprocessor
    · rename_i v hv
      cases hprocessor
      exact hsorted.get? hv
    · exact hsorted.get? hprocessor
  | @parallel items machines s hitems hmachines hs =>
    obtain ⟨i, hi⟩ := List.mem_iff_getElem?.mp hm
    obtain ⟨w, hw, hscope⟩ := branch_ok hmachines hi
    have hmem : w ∈ items := List.mem_of_getElem? hw
    refine ⟨_, w, hscope, ?_, fun hsorted => ?_⟩
    · have hsize := Json.sizeOf_get?_lt hitems
      have := List.sizeOf_lt_of_mem hmem
      simp only [Json.arr.sizeOf_spec] at hsize
      omega
    · have hitemsSorted := hsorted.get? hitems
      simp only [Json.Sorted] at hitemsSorted
      exact hitemsSorted.of_mem hmem
  | _ => cases hm

theorem distinct_scope {label : ScopeLabel} {v : Json} {m : Machine} (hv : v.Sorted)
    (h : scope label v = .ok m) : m.Distinct := by
  obtain ⟨-, fields, hfields, hstates⟩ := scope_ok h
  obtain ⟨hnames, hbodies, -⟩ := states_ok hstates
  have hobj : (Json.obj fields).Sorted := hv.get? hfields
  refine .intro (by rw [Machine.stateNames, hnames]; exact hobj.nodup_keys) ?_
  intro st hst inner hinner
  obtain ⟨body, hbody, hstate⟩ := hbodies st hst
  obtain ⟨-, typeName, -, hreads⟩ := state_ok hstate
  obtain ⟨label', w, hscope, hsize, hsorted⟩ := hreads.loaded_from inner hinner
  have hbodySorted : body.Sorted := by
    simp only [Json.Sorted] at hobj
    exact hobj.2.of_mem hbody
  exact distinct_scope (hsorted hbodySorted) hscope
termination_by sizeOf v
decreasing_by
  have hfieldsSize := Json.sizeOf_get?_lt hfields
  have hbodySize := List.sizeOf_lt_of_mem hbody
  simp only [Json.obj.sizeOf_spec] at hfieldsSize
  simp only [Prod.mk.sizeOf_spec] at hbodySize
  omega

end Load

theorem Machine.distinct_of_ofJson {v : Json} {m : Machine} (hv : v.Sorted)
    (h : Machine.ofJson v = .ok m) : m.Distinct :=
  Load.distinct_scope hv (Machine.loaded_of_ofJson h).1

end StateCheck
