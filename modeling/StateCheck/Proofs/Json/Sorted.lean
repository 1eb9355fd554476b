import StateCheck.Json.Basic
/-!
Sorted values.

A sorted value (`Json.Sorted`) has sorted parts, and the entries of its objects have distinct keys,
so that each is found under its key (`Fields.get?_of_mem`).
Setting entries one after the other gives back a list of entries that is sorted
(`Fields.ofList_of_sorted`).
-/
namespace StateCheck
set_option autoImplicit false

/-! ## Members of values -/

/-- What the members of an array or object hand up to it, and what all other values have, every
value has. -/
theorem Json.induction {P : Json → Prop}
    (leaf : ∀ v : Json, v.isScalar = true → v.isNumber = false → P v)
    (number : ∀ n, P (.num n))
    (array : ∀ items, (∀ v ∈ items, P v) → P (.arr items))
    (object : ∀ fields : Fields, (∀ key v, (key, v) ∈ fields → P v) → P (.obj fields))
    (v : Json) : P v :=
  match v with
  | .null => leaf _ rfl rfl
  | .bool _ => leaf _ rfl rfl
  | .str _ => leaf _ rfl rfl
  | .num n => number n
  | .arr items => array items fun v _ => Json.induction leaf number array object v
  | .obj fields => object fields fun _ v _ => Json.induction leaf number array object v
termination_by sizeOf v
decreasing_by
  · have hsize := List.sizeOf_lt_of_mem ‹v ∈ items›
    rw [Json.arr.sizeOf_spec]
    omega
  · have hsize := List.sizeOf_lt_of_mem ‹(_, v) ∈ fields›
    rw [Prod.mk.sizeOf_spec] at hsize
    rw [Json.obj.sizeOf_spec]
    omega

/-! ## Parts of sorted values -/

namespace Json

theorem SortedFields.of_mem {fields : Fields} {name : String} {v : Json} (h : SortedFields fields)
    (hv : (name, v) ∈ fields) : v.Sorted := by
  induction fields with
  | nil => cases hv
  | cons entry rest ih =>
    obtain ⟨hentry, hrest⟩ : entry.2.Sorted ∧ SortedFields rest := by
      simpa [SortedFields] using h
    rcases List.mem_cons.mp hv with rfl | hv
    · exact hentry
    · exact ih hrest hv

theorem SortedItems.of_mem {items : List Json} {v : Json} (h : SortedItems items)
    (hv : v ∈ items) : v.Sorted := by
  induction items with
  | nil => cases hv
  | cons item rest ih =>
    obtain ⟨hitem, hrest⟩ : item.Sorted ∧ SortedItems rest := by simpa [SortedItems] using h
    rcases List.mem_cons.mp hv with rfl | hv
    · exact hitem
    · exact ih hrest hv

theorem Sorted.of_lookup {key : String} {w : Json} {fields : Fields} (h : SortedFields fields)
    (hw : Fields.get? key fields = some w) : w.Sorted :=
  h.of_mem (Fields.mem_of_get? hw)

theorem Sorted.get? {v w : Json} {key : String} (h : v.Sorted) (hw : v.get? key = some w) :
    w.Sorted := by
  cases v with
  | obj fields =>
    simp only [Sorted] at h
    exact Sorted.of_lookup h.2 hw
  | _ => cases hw

theorem Sorted.of_item {items : List Json} {v : Json} (h : (Json.arr items).Sorted)
    (hv : v ∈ items) : v.Sorted := by
  simp only [Sorted] at h
  exact h.of_mem hv

theorem Sorted.of_entry {fields : Fields} {key : String} {v : Json} (h : (Json.obj fields).Sorted)
    (hv : (key, v) ∈ fields) : v.Sorted := by
  simp only [Sorted] at h
  exact h.2.of_mem hv

theorem Sorted.nodup_keys {fields : Fields} (h : (Json.obj fields).Sorted) : fields.keys.Nodup := by
  simp only [Sorted] at h
  rw [Fields.keys, List.Nodup, List.pairwise_map]
  refine h.1.imp fun {a b} hlt heq => ?_
  rw [heq] at hlt
  exact String.lt_irrefl _ hlt

end Json

/-! ## Entries in order -/

namespace Fields

theorem get?_of_mem {key : String} {value : Json} {fields : Fields} (hnodup : fields.keys.Nodup)
    (h : (key, value) ∈ fields) : get? key fields = some value := by
  induction fields with
  | nil => cases h
  | cons entry rest ih =>
    obtain ⟨k, v⟩ := entry
    rw [keys, List.map_cons, List.nodup_cons] at hnodup
    rcases List.mem_cons.mp h with heq | hmem
    · cases heq
      rw [get?, if_pos rfl]
    · have hne : k ≠ key := by
        rintro rfl
        exact hnodup.1 (List.mem_map.mpr ⟨_, hmem, rfl⟩)
      rw [get?, if_neg hne, ih hnodup.2 hmem]

theorem get?_filter {key : String} {keep : String × Json → Bool} {fields : Fields}
    (h : ∀ value, keep (key, value) = true) : get? key (fields.filter keep) = get? key fields := by
  induction fields with
  | nil => rfl
  | cons entry rest ih =>
    obtain ⟨k, v⟩ := entry
    by_cases hkey : k = key
    · subst hkey
      rw [List.filter_cons_of_pos (h v), get?, get?, if_pos rfl, if_pos rfl]
    · rw [List.filter_cons, get?, if_neg hkey, ← ih]
      split
      · rw [get?, if_neg hkey]
      · rfl

theorem exists_mem_of_mem_keys {key : String} {fields : Fields} (h : key ∈ fields.keys) :
    ∃ value, (key, value) ∈ fields := by
  obtain ⟨⟨k, v⟩, hmem, rfl⟩ := List.mem_map.mp h
  exact ⟨v, hmem⟩

theorem insert_of_lt {key : String} {value : Json} {fields : Fields}
    (h : ∀ entry ∈ fields, entry.1 < key) : insert key value fields = fields ++ [(key, value)] := by
  induction fields with
  | nil => rfl
  | cons entry rest ih =>
    obtain ⟨k, v⟩ := entry
    have hlt : k < key := h (k, v) (List.mem_cons_self ..)
    have hne : key ≠ k := by
      rintro rfl
      exact String.lt_irrefl _ hlt
    rw [insert, if_neg hne, if_neg (String.lt_asymm hlt),
      ih fun entry hentry => h entry (List.mem_cons_of_mem _ hentry)]
    rfl

theorem insert_of_get? {key : String} {value : Json} {fields : Fields}
    (hsorted : fields.Pairwise fun a b => a.1 < b.1) (h : get? key fields = some value) :
    insert key value fields = fields := by
  induction fields with
  | nil => cases h
  | cons entry rest ih =>
    obtain ⟨k, v⟩ := entry
    rw [get?] at h
    split at h
    · next heq =>
      subst heq
      cases h
      rw [insert, if_pos rfl]
    · next hne =>
      have hrest := (List.pairwise_cons.mp hsorted).2
      have hmem : (key, value) ∈ rest := mem_of_get? h
      have hlt : k < key := (List.pairwise_cons.mp hsorted).1 _ hmem
      rw [insert, if_neg (Ne.symm hne), if_neg (String.lt_asymm hlt), ih hrest h]

theorem foldl_insert_of_sorted {fields before : Fields}
    (h : (before ++ fields).Pairwise fun a b => a.1 < b.1) :
    fields.foldl (fun fields (key, value) => insert key value fields) before =
      before ++ fields := by
  induction fields generalizing before with
  | nil => rw [List.foldl_nil, List.append_nil]
  | cons entry rest ih =>
    obtain ⟨key, value⟩ := entry
    have hlt : ∀ entry ∈ before, entry.1 < key := fun entry hentry =>
      (List.pairwise_append.mp h).2.2 entry hentry (key, value) (List.mem_cons_self ..)
    rw [List.foldl_cons]
    dsimp only
    rw [insert_of_lt hlt, ih (by simpa using h), List.append_assoc]
    rfl

theorem ofList_of_sorted {fields : Fields} (h : fields.Pairwise fun a b => a.1 < b.1) :
    ofList fields = fields := by
  have hfold := @foldl_insert_of_sorted fields [] h
  exact hfold

theorem mem_insert {key : String} {value : Json} {fields : Fields} {entry : String × Json}
    (h : entry ∈ insert key value fields) : entry = (key, value) ∨ entry ∈ fields := by
  fun_induction insert key value fields with
  | case1 => exact .inl (List.mem_singleton.mp h)
  | case2 => exact (List.mem_cons.mp h).imp_right (List.mem_cons_of_mem _)
  | case3 => exact List.mem_cons.mp h
  | case4 k v rest _ _ ih =>
    rcases List.mem_cons.mp h with rfl | h
    · exact .inr (List.mem_cons_self ..)
    · exact (ih h).imp_right (List.mem_cons_of_mem _)

theorem insert_sorted {key : String} {value : Json} {fields : Fields}
    (h : fields.Pairwise fun a b => a.1 < b.1) :
    (insert key value fields).Pairwise fun a b => a.1 < b.1 := by
  induction fields with
  | nil => exact List.pairwise_singleton ..
  | cons entry rest ih =>
    obtain ⟨k, v⟩ := entry
    obtain ⟨hfirst, hrest⟩ := List.pairwise_cons.mp h
    rw [insert]
    split
    · next heq =>
      subst heq
      exact List.pairwise_cons.mpr ⟨hfirst, hrest⟩
    · next hne =>
      split
      · next hlt =>
        refine List.pairwise_cons.mpr ⟨fun entry hentry => ?_, h⟩
        rcases List.mem_cons.mp hentry with rfl | hentry
        · exact hlt
        · exact String.lt_trans hlt (hfirst entry hentry)
      · next hnot =>
        refine List.pairwise_cons.mpr ⟨fun entry hentry => ?_, ih hrest⟩
        rcases mem_insert hentry with rfl | hentry
        · exact String.not_le.mp fun hle => hne (String.le_antisymm hle (String.not_lt.mp hnot))
        · exact hfirst entry hentry

theorem ofList_sorted (entries : List (String × Json)) :
    (ofList entries).Pairwise fun a b => a.1 < b.1 := by
  have hfold : ∀ before : Fields, (before.Pairwise fun a b => a.1 < b.1) →
      (entries.foldl (fun fields (key, value) => insert key value fields) before).Pairwise
        fun a b => a.1 < b.1 := by
    induction entries with
    | nil => exact fun before h => h
    | cons entry rest ih => exact fun before h => ih _ (insert_sorted h)
  exact hfold [] .nil

/-- Entries in order are determined by what is found in them. -/
theorem eq_of_get? {a b : Fields} (ha : a.Pairwise fun x y => x.1 < y.1)
    (hb : b.Pairwise fun x y => x.1 < y.1) (h : ∀ key, get? key a = get? key b) : a = b := by
  have hne : ∀ x y : String × Json, x.1 < y.1 → x.1 ≠ y.1 := by
    intro x y hlt heq
    rw [heq] at hlt
    exact String.lt_irrefl _ hlt
  have hmem : ∀ c : Fields, (c.Pairwise fun x y => x.1 < y.1) →
      ∀ entry, entry ∈ c ↔ get? entry.1 c = some entry.2 := by
    intro c hc entry
    have hkeys : c.keys.Nodup := List.pairwise_map.mpr (hc.imp fun {x y} => hne x y)
    exact ⟨get?_of_mem hkeys, mem_of_get?⟩
  have hdistinct : ∀ c : Fields, (c.Pairwise fun x y => x.1 < y.1) → c.Nodup := fun c hc =>
    hc.imp fun {x y} hlt heq => hne x y hlt (congrArg _ heq)
  have hperm : a.Perm b := (List.perm_ext_iff_of_nodup (hdistinct a ha) (hdistinct b hb)).mpr
    fun entry => by rw [hmem a ha, hmem b hb, h]
  exact hperm.eq_of_pairwise (fun x y _ _ hxy hyx => (String.lt_asymm hxy hyx).elim) ha hb

end Fields
end StateCheck
