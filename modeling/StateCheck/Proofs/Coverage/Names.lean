import Mathlib.Data.List.Sort
import Mathlib.Data.Set.Card
import StateCheck.Coverage.NameSet
/-!
Sets of names by their members.

A set of names is determined by its members (`NameSet.ext`), since they stand in order without
repetition; its size is their number.
-/
namespace StateCheck
set_option autoImplicit false

namespace NameSet

variable {a b : NameSet} {names more : List String} {x : String}

theorem ne_of_lt {x y : String} (h : x < y) : x ≠ y := by
  rintro rfl
  exact String.lt_irrefl x h

theorem nodup (s : NameSet) : s.toList.Nodup := s.sorted.imp ne_of_lt

theorem ext (h : ∀ x, x ∈ a ↔ x ∈ b) : a = b := by
  have hlist : a.toList = b.toList := a.sorted.eq_of_mem_iff b.sorted (fun {x} => h x)
  cases a
  cases b
  congr

theorem not_mem_empty : x ∉ empty := List.not_mem_nil

@[simp] theorem mem_insertAll : x ∈ a.insertAll names ↔ x ∈ names ∨ x ∈ a := by
  induction names generalizing a with
  | nil => simp [insertAll]
  | cons n rest ih =>
    show x ∈ (a.insert n).insertAll rest ↔ _
    rw [ih, mem_insert, List.mem_cons]
    tauto

theorem insertAll_append : a.insertAll (names ++ more) = (a.insertAll names).insertAll more :=
  List.foldl_append

@[simp] theorem mem_union : x ∈ a.union b ↔ x ∈ a ∨ x ∈ b := by
  rw [union, mem_insertAll, or_comm]
  rfl

@[simp] theorem union_self (s : NameSet) : s.union s = s := ext fun x => by simp

@[simp] theorem mem_diff : x ∈ a.diff b ↔ x ∈ a ∧ x ∉ b := by
  rw [diff, List.mem_filter, decide_eq_true_eq]
  rfl

theorem ncard_members (s : NameSet) : {x | x ∈ s}.ncard = s.size := by
  have hset : {x | x ∈ s} = (↑s.toList.toFinset : Set String) := by
    ext x
    rw [List.coe_toFinset]
    rfl
  rw [hset, Set.ncard_coe_finset, List.toFinset_card_of_nodup s.nodup]
  rfl

end NameSet
end StateCheck
