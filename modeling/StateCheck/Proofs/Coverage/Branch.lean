import StateCheck.Coverage.Tracker
import Mathlib.Data.List.Infix
/-!
Branches by name.

The name of a branch tells the Choice state and the target apart as long as no Choice state has an
arrow in its name (`branchId_inj`). The moves of a path are the pairs of its neighbours.
-/
namespace StateCheck
set_option autoImplicit false

/-- The name has no arrow in it. -/
def ArrowFree (name : String) : Prop := ¬['-', '>'] <:+: name.toList

instance (name : String) : Decidable (ArrowFree name) :=
  inferInstanceAs (Decidable (¬['-', '>'] <:+: name.toList))

theorem arrow_split {a b rest rest' : List Char} (ha : ¬['-', '>'] <:+: a)
    (h : a ++ ['-', '>'] ++ rest = b ++ ['-', '>'] ++ rest') : ∃ middle, a ++ middle = b := by
  rw [List.append_assoc, List.append_assoc] at h
  rcases List.append_eq_append_iff.mp h with ⟨middle, hb, -⟩ | ⟨middle, hmiddle, hrest⟩
  · exact ⟨middle, hb.symm⟩
  · -- The longer name would go on with an arrow, or with a dash that an arrow begins with.
    match middle with
    | [] => exact ⟨[], by simpa using hmiddle⟩
    | [x] => simp at hrest
    | x :: y :: more =>
      obtain ⟨hx, hy, -⟩ : '-' = x ∧ '>' = y ∧ _ := by simpa using hrest
      exact absurd ⟨b, more, by rw [hmiddle, ← hx, ← hy]; simp⟩ ha

theorem branchId_inj {c c' t t' : String} (hc : ArrowFree c) (hc' : ArrowFree c') :
    branchId c t = branchId c' t' ↔ c = c' ∧ t = t' := by
  refine ⟨fun h => ?_, fun ⟨hc, ht⟩ => by rw [hc, ht]⟩
  have hlist : c.toList ++ ['-', '>'] ++ t.toList = c'.toList ++ ['-', '>'] ++ t'.toList := by
    have := congrArg String.toList h
    simpa [branchId] using this
  obtain ⟨x, hx⟩ := arrow_split hc hlist
  obtain ⟨y, hy⟩ := arrow_split hc' hlist.symm
  have hnil : x = [] := by
    have hlength := congrArg List.length (hx ▸ hy)
    simp only [List.length_append] at hlength
    exact List.length_eq_zero_iff.mp (by omega)
  rw [hnil, List.append_nil] at hx
  rw [hx] at hlist
  exact ⟨String.toList_injective hx, String.toList_injective (List.append_cancel_left hlist)⟩

/-- With an arrow in the name of a Choice state its branches may be taken for others. -/
example : branchId "a->b" "c" = branchId "a" "b->c" := rfl

namespace Accumulator

theorem mem_movesOf {path : List String} {x : String} :
    x ∈ movesOf path ↔ ∃ a b, [a, b] <:+: path ∧ x = branchId a b := by
  induction path with
  | nil => simp [movesOf]
  | cons first rest ih =>
    cases rest with
    | nil => simp [movesOf, List.infix_cons_iff]
    | cons second rest =>
      have hmoves : movesOf (first :: second :: rest) =
          branchId first second :: movesOf (second :: rest) := rfl
      rw [hmoves, List.mem_cons, ih]
      constructor
      · rintro (rfl | ⟨a, b, hpair, rfl⟩)
        · exact ⟨first, second, ⟨[], rest, rfl⟩, rfl⟩
        · exact ⟨a, b, List.infix_cons_iff.mpr (.inr hpair), rfl⟩
      · rintro ⟨a, b, hpair, rfl⟩
        rcases List.infix_cons_iff.mp hpair with hstates | hpair
        · obtain ⟨ha, hrest⟩ := List.cons_prefix_cons.mp hstates
          obtain ⟨hb, -⟩ := List.cons_prefix_cons.mp hrest
          exact .inl (by rw [ha, hb])
        · exact .inr ⟨a, b, hpair, rfl⟩

theorem mem_branchesOf {st : State} {x : String} :
    x ∈ branchesOf st ↔ ∃ t ∈ st.kind.choiceTargets, x = branchId st.name t := by
  simp [branchesOf, eq_comm]

end Accumulator

/-- The Choice state may decide for the target. -/
def Machine.Branch (m : Machine) (choice target : String) : Prop :=
  ∃ st ∈ m.states, st.name = choice ∧ target ∈ st.kind.choiceTargets

theorem StateKind.exists_choice {kind : StateKind} {target : String}
    (h : target ∈ kind.choiceTargets) : ∃ spec, kind = .choice spec := by
  cases kind with
  | choice spec => exact ⟨spec, rfl⟩
  | _ => cases h

theorem State.successors_choice (name : String) (comment : Option String) (spec : ChoiceSpec) :
    State.successors ⟨name, comment, .choice spec⟩ = StateKind.choiceTargets (.choice spec) :=
  List.append_nil _

end StateCheck
