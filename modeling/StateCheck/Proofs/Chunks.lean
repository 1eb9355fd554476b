import StateCheck.Chunks
/-!
Pieces of one size.

The pieces of a list are not empty, they are the list when put together, and all but the last have
the size in full. A list that fits in one piece has one.
-/
namespace StateCheck
set_option autoImplicit false

variable {α : Type} {size : Nat} {items : List α}

@[simp] theorem chunks_nil : chunks size ([] : List α) = [] := by
  rw [chunks, if_pos (.inl rfl)]

theorem chunks_of_ne_nil (hsize : 0 < size) (h : items ≠ []) :
    chunks size items = items.take size :: chunks size (items.drop size) := by
  rw [chunks, if_neg]
  rintro (hnil | hzero)
  · exact h hnil
  · omega

theorem flatten_chunks (hsize : 0 < size) (items : List α) :
    (chunks size items).flatten = items := by
  induction items using chunks.induct size with
  | case1 items h =>
    obtain rfl : items = [] := h.resolve_right (by omega)
    rw [chunks_nil, List.flatten_nil]
  | case2 items h ih =>
    have hne : items ≠ [] := fun hnil => h (.inl hnil)
    rw [chunks_of_ne_nil hsize hne, List.flatten_cons, ih, List.take_append_drop]

theorem ne_nil_of_mem_chunks {piece : List α} (h : piece ∈ chunks size items) : piece ≠ [] := by
  induction items using chunks.induct size with
  | case1 items hnone => rw [chunks, if_pos hnone] at h; cases h
  | case2 items hsome ih =>
    rw [chunks, if_neg hsome] at h
    rcases List.mem_cons.mp h with rfl | h
    · intro hnil
      rcases List.take_eq_nil_iff.mp hnil with hzero | hitems
      · exact hsome (.inr hzero)
      · exact hsome (.inl hitems)
    · exact ih h

theorem length_of_mem_dropLast_chunks {piece : List α} (h : piece ∈ (chunks size items).dropLast) :
    piece.length = size := by
  induction items using chunks.induct size with
  | case1 items hnone => rw [chunks, if_pos hnone] at h; cases h
  | case2 items hsome ih =>
    rw [chunks, if_neg hsome] at h
    by_cases hrest : chunks size (items.drop size) = []
    · rw [hrest] at h
      cases h
    · rw [List.dropLast_cons_of_ne_nil hrest] at h
      rcases List.mem_cons.mp h with rfl | h
      · -- Another piece follows, so that the items go on beyond this one.
        have hmore : items.drop size ≠ [] := fun hnil => hrest (by rw [hnil, chunks_nil])
        have hlength := mt List.drop_eq_nil_iff.mpr hmore
        rw [List.length_take]
        omega
      · exact ih h

theorem chunks_of_length_le (hne : items ≠ []) (h : items.length ≤ size) :
    chunks size items = [items] := by
  have hpos := List.length_pos_iff.mpr hne
  rw [chunks_of_ne_nil (by omega) hne, List.take_of_length_le h, List.drop_eq_nil_of_le h,
    chunks_nil]

theorem dropLast_chunks_of_length_le (h : items.length ≤ size) :
    (chunks size items).dropLast = [] := by
  by_cases hne : items = []
  · rw [hne, chunks_nil, List.dropLast_nil]
  · rw [chunks_of_length_le hne h, List.dropLast_singleton]

end StateCheck
