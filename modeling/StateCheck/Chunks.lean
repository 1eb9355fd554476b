/-!
Cutting a list in pieces of one size, the last of which may be shorter.
-/
namespace StateCheck
set_option autoImplicit false

/-- The pieces of a list of `size` elements each; no pieces of an empty list or of size zero. -/
def chunks {α : Type} (size : Nat) (items : List α) : List (List α) :=
  if items = [] ∨ size = 0 then []
  else items.take size :: chunks size (items.drop size)
termination_by items.length
decreasing_by
  rename_i h
  have h₁ : items ≠ [] := fun e => h (.inl e)
  have h₂ : size ≠ 0 := fun e => h (.inr e)
  have := List.length_pos_iff.mpr h₁
  simp only [List.length_drop]
  omega

end StateCheck
