import StateCheck.Proofs.Json.Sorted
import StateCheck.Proofs.Number.Order
import StateCheck.Suite.Matching
/-!
The relations that values are compared by.

On values as they are read from texts (`JsonValue`) the exact comparison is an equivalence and the
lenient one a preorder, of which the exact one is the symmetric part
(`JsonValue.valuesMatch_relations`). The object case looks the expected keys up on one side only;
that no key of the other side is left over follows from the numbers of keys, because no object
repeats one (`Fields.keys_perm_of_found`).
-/
namespace StateCheck
set_option autoImplicit false

/-! ## What a match is -/

section
variable {mode : MatchMode}

theorem valuesMatch_leaf_iff {e a : Json} (hscalar : e.isScalar = true)
    (hnumber : e.isNumber = false) : valuesMatch mode e a = true ↔ a = e := by
  constructor
  · intro h
    cases e with
    | null =>
      cases a with
      | null => rfl
      | _ => cases h
    | bool b =>
      cases a with
      | bool c =>
        have heq : (b == c) = true := h
        rw [eq_of_beq heq]
      | _ => cases h
    | str s =>
      cases a with
      | str t =>
        have heq : (s == t) = true := h
        rw [eq_of_beq heq]
      | _ => cases h
    | num n => cases hnumber
    | arr items => cases hscalar
    | obj fields => cases hscalar
  · rintro rfl
    cases a with
    | null => rfl
    | bool b => exact beq_self_eq_true b
    | str s => exact beq_self_eq_true s
    | num n => cases hnumber
    | arr items => cases hscalar
    | obj fields => cases hscalar

theorem valuesMatch_num_iff {m : Number} {a : Json} :
    valuesMatch mode (.num m) a = true ↔ ∃ n, a = .num n ∧ m.cmp? n = some .eq := by
  constructor
  · intro h
    cases a with
    | num n => exact ⟨n, rfl, eq_of_beq h⟩
    | _ => cases h
  · rintro ⟨n, rfl, h⟩
    exact beq_iff_eq.mpr h

theorem itemsMatch_iff {items values : List Json} : itemsMatch mode items values = true ↔
    List.Forall₂ (fun e a => valuesMatch mode e a = true) items values := by
  induction items generalizing values with
  | nil => cases values <;> simp [itemsMatch]
  | cons e rest ih =>
    cases values with
    | nil => simp [itemsMatch]
    | cons a more => rw [itemsMatch, Bool.and_eq_true, ih, List.forall₂_cons]

theorem valuesMatch_arr_iff {items : List Json} {a : Json} :
    valuesMatch mode (.arr items) a = true ↔ ∃ values, a = .arr values ∧
      List.Forall₂ (fun e a => valuesMatch mode e a = true) items values := by
  constructor
  · intro h
    cases a with
    | arr values => exact ⟨values, rfl, itemsMatch_iff.mp h⟩
    | _ => cases h
  · rintro ⟨values, rfl, h⟩
    exact itemsMatch_iff.mpr h

theorem fieldsMatch_iff {fields found : Fields} : fieldsMatch mode fields found = true ↔
    ∀ key e, (key, e) ∈ fields →
      ∃ a, Fields.get? key found = some a ∧ valuesMatch mode e a = true := by
  induction fields with
  | nil => simp [fieldsMatch]
  | cons entry rest ih =>
    obtain ⟨key, e⟩ := entry
    rw [fieldsMatch, Bool.and_eq_true, ih]
    constructor
    · rintro ⟨hfirst, hrest⟩ key' e' hmem
      rcases List.mem_cons.mp hmem with heq | hmem
      · cases heq
        split at hfirst
        · next a ha => exact ⟨a, ha, hfirst⟩
        · cases hfirst
      · exact hrest key' e' hmem
    · intro h
      refine ⟨?_, fun key' e' hmem => h key' e' (List.mem_cons_of_mem _ hmem)⟩
      obtain ⟨a, ha, hmatch⟩ := h key e (List.mem_cons_self ..)
      rw [ha]
      exact hmatch

theorem valuesMatch_obj_iff {fields : Fields} {a : Json} :
    valuesMatch mode (.obj fields) a = true ↔ ∃ found, a = .obj found ∧
      (mode = .exact → fields.length = found.length) ∧
      ∀ key e, (key, e) ∈ fields →
        ∃ a, Fields.get? key found = some a ∧ valuesMatch mode e a = true := by
  have hsizes : ∀ found : Fields, (mode == .lenient || fields.length == found.length) = true ↔
      (mode = .exact → fields.length = found.length) := by
    intro found
    cases mode <;> simp
  constructor
  · intro h
    cases a with
    | obj found =>
      rw [valuesMatch_obj, Bool.and_eq_true, hsizes, fieldsMatch_iff] at h
      exact ⟨found, rfl, h⟩
    | _ => cases h
  · rintro ⟨found, rfl, h⟩
    rwa [valuesMatch_obj, Bool.and_eq_true, hsizes, fieldsMatch_iff]

end

/-! ## Counting keys -/

namespace Fields

variable {fields found : Fields}

theorem keys_subset_of_found
    (h : ∀ key e, (key, e) ∈ fields → ∃ a, get? key found = some a) :
    fields.keys ⊆ found.keys := by
  intro key hkey
  obtain ⟨e, hmem⟩ := exists_mem_of_mem_keys hkey
  obtain ⟨a, ha⟩ := h key e hmem
  exact List.mem_map.mpr ⟨_, mem_of_get? ha, rfl⟩

theorem length_le_of_found (hnodup : fields.keys.Nodup)
    (h : ∀ key e, (key, e) ∈ fields → ∃ a, get? key found = some a) :
    fields.length ≤ found.length := by
  have hle := (hnodup.subperm (keys_subset_of_found h)).length_le
  rwa [keys, keys, List.length_map, List.length_map] at hle

theorem keys_perm_of_found (hnodup : fields.keys.Nodup) (hlength : found.length ≤ fields.length)
    (h : ∀ key e, (key, e) ∈ fields → ∃ a, get? key found = some a) :
    fields.keys.Perm found.keys := by
  refine (hnodup.subperm (keys_subset_of_found h)).perm_of_length_le ?_
  rwa [keys, keys, List.length_map, List.length_map]

end Fields

/-! ## Laws of the comparisons -/

/-- Every number in the value is one that is read from a text. -/
inductive Json.Fits : Json → Prop
  | null : Fits .null
  | bool (b : Bool) : Fits (.bool b)
  | num {n : Number} : n.Fits → Fits (.num n)
  | str (s : String) : Fits (.str s)
  | arr {items : List Json} : (∀ v ∈ items, Fits v) → Fits (.arr items)
  | obj {fields : Fields} : (∀ key v, (key, v) ∈ fields → Fits v) → Fits (.obj fields)

section
variable {mode : MatchMode} {e a b : Json}

theorem valuesMatch_refl (h : a.Sorted) : valuesMatch mode a a = true := by
  induction a using Json.induction with
  | leaf a hscalar hnumber => exact (valuesMatch_leaf_iff hscalar hnumber).mpr rfl
  | number n => exact valuesMatch_num_iff.mpr ⟨n, rfl, n.cmp?_self⟩
  | array items ih =>
    refine valuesMatch_arr_iff.mpr ⟨items, rfl, List.forall₂_same.mpr fun v hv => ?_⟩
    exact ih v hv (h.of_item hv)
  | object fields ih =>
    refine valuesMatch_obj_iff.mpr ⟨fields, rfl, fun _ => rfl, fun key v hv => ⟨v, ?_, ?_⟩⟩
    · exact Fields.get?_of_mem h.nodup_keys hv
    · exact ih key v hv (h.of_entry hv)

theorem valuesMatch_trans (he : e.Fits) (ha : a.Fits) (hb : b.Fits)
    (hea : valuesMatch mode e a = true) (hab : valuesMatch mode a b = true) :
    valuesMatch mode e b = true := by
  induction e using Json.induction generalizing a b with
  | leaf e hscalar hnumber =>
    obtain rfl := (valuesMatch_leaf_iff hscalar hnumber).mp hea
    exact hab
  | number m =>
    obtain ⟨n, rfl, hmn⟩ := valuesMatch_num_iff.mp hea
    obtain ⟨k, rfl, hnk⟩ := valuesMatch_num_iff.mp hab
    cases he with | num hm => cases ha with | num hn => cases hb with | num hk =>
    rw [Number.cmp?_eq_some_eq_iff hm hn] at hmn
    rw [Number.cmp?_eq_some_eq_iff hn hk] at hnk
    exact valuesMatch_num_iff.mpr
      ⟨k, rfl, (Number.cmp?_eq_some_eq_iff hm hk).mpr (hmn.trans hnk)⟩
  | array items ih =>
    obtain ⟨values, rfl, hvalues⟩ := valuesMatch_arr_iff.mp hea
    obtain ⟨others, rfl, hothers⟩ := valuesMatch_arr_iff.mp hab
    cases he with | arr he => cases ha with | arr ha => cases hb with | arr hb =>
    obtain ⟨hlength, hvalues⟩ := List.forall₂_iff_get.mp hvalues
    obtain ⟨hlength', hothers⟩ := List.forall₂_iff_get.mp hothers
    refine valuesMatch_arr_iff.mpr ⟨others, rfl, List.forall₂_iff_get.mpr
      ⟨hlength.trans hlength', fun i hi hi' => ?_⟩⟩
    have hmid : i < values.length := hlength ▸ hi
    exact ih _ (List.get_mem ..) (he _ (List.get_mem ..)) (ha _ (List.get_mem ..))
      (hb _ (List.get_mem ..)) (hvalues i hi hmid) (hothers i hmid hi')
  | object fields ih =>
    obtain ⟨found, rfl, hlength, hfound⟩ := valuesMatch_obj_iff.mp hea
    obtain ⟨others, rfl, hlength', hothers⟩ := valuesMatch_obj_iff.mp hab
    cases he with | obj he => cases ha with | obj ha => cases hb with | obj hb =>
    refine valuesMatch_obj_iff.mpr ⟨others, rfl, fun hexact =>
      (hlength hexact).trans (hlength' hexact), fun key v hv => ?_⟩
    obtain ⟨w, hw, hvw⟩ := hfound key v hv
    have hwmem := Fields.mem_of_get? hw
    obtain ⟨x, hx, hwx⟩ := hothers key w hwmem
    exact ⟨x, hx, ih key v hv (he key v hv) (ha key w hwmem)
      (hb key x (Fields.mem_of_get? hx)) hvw hwx⟩

theorem valuesMatch_exact_symm (he : e.Sorted) (h : valuesMatch .exact e a = true) :
    valuesMatch .exact a e = true := by
  induction e using Json.induction generalizing a with
  | leaf e hscalar hnumber =>
    obtain rfl := (valuesMatch_leaf_iff hscalar hnumber).mp h
    exact h
  | number m =>
    obtain ⟨n, rfl, hmn⟩ := valuesMatch_num_iff.mp h
    exact valuesMatch_num_iff.mpr ⟨m, rfl, Number.cmp?_eq_symm hmn⟩
  | array items ih =>
    obtain ⟨values, rfl, hvalues⟩ := valuesMatch_arr_iff.mp h
    obtain ⟨hlength, hvalues⟩ := List.forall₂_iff_get.mp hvalues
    refine valuesMatch_arr_iff.mpr ⟨items, rfl, List.forall₂_iff_get.mpr
      ⟨hlength.symm, fun i hi hi' => ?_⟩⟩
    exact ih _ (List.get_mem ..) (he.of_item (List.get_mem ..)) (hvalues i hi' hi)
  | object fields ih =>
    obtain ⟨found, rfl, hlength, hfound⟩ := valuesMatch_obj_iff.mp h
    -- As many keys on both sides: every key of the found entries is one of the expected ones.
    have hkeys : fields.keys.Perm (Fields.keys found) := Fields.keys_perm_of_found he.nodup_keys
      (hlength rfl).ge fun key v hv => (hfound key v hv).imp fun _ hw => hw.1
    refine valuesMatch_obj_iff.mpr ⟨fields, rfl, fun _ => (hlength rfl).symm, fun key w hw => ?_⟩
    have hkey : key ∈ fields.keys := hkeys.mem_iff.mpr (List.mem_map.mpr ⟨_, hw, rfl⟩)
    obtain ⟨v, hv⟩ := Fields.exists_mem_of_mem_keys hkey
    obtain ⟨w', hw', hmatch⟩ := hfound key v hv
    obtain rfl : w' = w := by
      rw [Fields.get?_of_mem (hkeys.nodup_iff.mp he.nodup_keys) hw] at hw'
      exact (Option.some.inj hw').symm
    exact ⟨v, Fields.get?_of_mem he.nodup_keys hv, ih key v hv (he.of_entry hv) hmatch⟩

theorem valuesMatch_lenient_of_exact (h : valuesMatch .exact e a = true) :
    valuesMatch .lenient e a = true := by
  induction e using Json.induction generalizing a with
  | leaf e hscalar hnumber =>
    exact (valuesMatch_leaf_iff hscalar hnumber).mpr ((valuesMatch_leaf_iff hscalar hnumber).mp h)
  | number m => exact valuesMatch_num_iff.mpr (valuesMatch_num_iff.mp h)
  | array items ih =>
    obtain ⟨values, rfl, hvalues⟩ := valuesMatch_arr_iff.mp h
    obtain ⟨hlength, hvalues⟩ := List.forall₂_iff_get.mp hvalues
    exact valuesMatch_arr_iff.mpr ⟨values, rfl, List.forall₂_iff_get.mpr
      ⟨hlength, fun i hi hi' => ih _ (List.get_mem ..) (hvalues i hi hi')⟩⟩
  | object fields ih =>
    obtain ⟨found, rfl, -, hfound⟩ := valuesMatch_obj_iff.mp h
    refine valuesMatch_obj_iff.mpr ⟨found, rfl, nofun, fun key v hv => ?_⟩
    obtain ⟨w, hw, hmatch⟩ := hfound key v hv
    exact ⟨w, hw, ih key v hv hmatch⟩

theorem valuesMatch_exact_of_lenient (he : e.Sorted) (ha : a.Sorted)
    (hea : valuesMatch .lenient e a = true) (hae : valuesMatch .lenient a e = true) :
    valuesMatch .exact e a = true := by
  induction e using Json.induction generalizing a with
  | leaf e hscalar hnumber =>
    exact (valuesMatch_leaf_iff hscalar hnumber).mpr
      ((valuesMatch_leaf_iff hscalar hnumber).mp hea)
  | number m => exact valuesMatch_num_iff.mpr (valuesMatch_num_iff.mp hea)
  | array items ih =>
    obtain ⟨values, rfl, hvalues⟩ := valuesMatch_arr_iff.mp hea
    obtain ⟨hlength, hvalues⟩ := List.forall₂_iff_get.mp hvalues
    obtain ⟨_, hitems, hback⟩ := valuesMatch_arr_iff.mp hae
    cases hitems
    obtain ⟨-, hback⟩ := List.forall₂_iff_get.mp hback
    exact valuesMatch_arr_iff.mpr ⟨values, rfl, List.forall₂_iff_get.mpr
      ⟨hlength, fun i hi hi' => ih _ (List.get_mem ..) (he.of_item (List.get_mem ..))
        (ha.of_item (List.get_mem ..)) (hvalues i hi hi') (hback i hi' hi)⟩⟩
  | object fields ih =>
    obtain ⟨found, rfl, -, hfound⟩ := valuesMatch_obj_iff.mp hea
    obtain ⟨_, hfields, -, hback⟩ := valuesMatch_obj_iff.mp hae
    cases hfields
    have hlength : fields.length = found.length := Nat.le_antisymm
      (Fields.length_le_of_found he.nodup_keys fun key v hv =>
        (hfound key v hv).imp fun _ hw => hw.1)
      (Fields.length_le_of_found ha.nodup_keys fun key w hw =>
        (hback key w hw).imp fun _ hv => hv.1)
    refine valuesMatch_obj_iff.mpr ⟨found, rfl, fun _ => hlength, fun key v hv => ?_⟩
    obtain ⟨w, hw, hvw⟩ := hfound key v hv
    have hwmem := Fields.mem_of_get? hw
    obtain ⟨v', hv', hwv⟩ := hback key w hwmem
    obtain rfl : v' = v := by
      rw [Fields.get?_of_mem he.nodup_keys hv] at hv'
      exact (Option.some.inj hv').symm
    exact ⟨w, hw, ih key _ hv (he.of_entry hv) (ha.of_entry hwmem) hvw hwv⟩

end

/-! ## Further keys -/

/-- One object in the value gets one key that it did not have. -/
inductive Json.Adds : Json → Json → Prop
  | key {fields : Fields} {name : String} (v : Json) : Fields.get? name fields = none →
      Adds (.obj fields) (.obj (Fields.insert name v fields))
  | entry {fields : Fields} {name : String} {v v' : Json} : Fields.get? name fields = some v →
      Adds v v' → Adds (.obj fields) (.obj (Fields.insert name v' fields))
  | item {items : List Json} {i : Nat} {v v' : Json} : items[i]? = some v →
      Adds v v' → Adds (.arr items) (.arr (items.set i v'))

/-- An object matches another one whose keys hold what matches no less. -/
theorem valuesMatch_obj_mono {fields fields' : Fields}
    (hkeys : ∀ key w, Fields.get? key fields = some w → ∃ w', Fields.get? key fields' = some w' ∧
      ∀ e, valuesMatch .lenient e w = true → valuesMatch .lenient e w' = true)
    {e : Json} (he : valuesMatch .lenient e (.obj fields) = true) :
    valuesMatch .lenient e (.obj fields') = true := by
  cases e with
  | obj expected =>
    obtain ⟨_, hfields, -, hfound⟩ := valuesMatch_obj_iff.mp he
    cases hfields
    refine valuesMatch_obj_iff.mpr ⟨_, rfl, nofun, fun key e hmem => ?_⟩
    obtain ⟨w, hw, hmatch⟩ := hfound key e hmem
    obtain ⟨w', hw', hkept⟩ := hkeys key w hw
    exact ⟨w', hw', hkept e hmatch⟩
  | _ => cases he

theorem valuesMatch_of_adds {a a' : Json} (h : a.Adds a') {e : Json}
    (he : valuesMatch .lenient e a = true) : valuesMatch .lenient e a' = true := by
  induction h generalizing e with
  | @key fields name v hnone =>
    refine valuesMatch_obj_mono (fun key w hw => ?_) he
    have hne : key ≠ name := by
      rintro rfl
      rw [hnone] at hw
      cases hw
    exact ⟨w, (Fields.get?_insert_of_ne hne v fields).trans hw, fun _ => id⟩
  | @entry fields name v v' hv _ ih =>
    refine valuesMatch_obj_mono (fun key w hw => ?_) he
    by_cases hkey : key = name
    · subst hkey
      obtain rfl : v = w := Option.some.inj (hv.symm.trans hw)
      exact ⟨v', Fields.get?_insert_self key v' fields, fun _ => ih⟩
    · exact ⟨w, (Fields.get?_insert_of_ne hkey v' fields).trans hw, fun _ => id⟩
  | @item items i v v' hv _ ih =>
    cases e with
    | arr expected =>
      obtain ⟨_, hitems, hmatches⟩ := valuesMatch_arr_iff.mp he
      cases hitems
      obtain ⟨hlength, hmatches⟩ := List.forall₂_iff_get.mp hmatches
      refine valuesMatch_arr_iff.mpr ⟨_, rfl, List.forall₂_iff_get.mpr
        ⟨by rw [hlength, List.length_set], fun j hj hj' => ?_⟩⟩
      have hold := hmatches j hj (by rwa [List.length_set] at hj')
      simp only [List.get_eq_getElem, List.getElem_set] at hold ⊢
      split
      · next heq =>
        subst heq
        obtain ⟨_, hvi⟩ := List.getElem?_eq_some_iff.mp hv
        rw [hvi] at hold
        exact ih hold
      · exact hold
    | _ => cases he

/-! ## Values as they are read -/

/-- A value as it is read from a text: the keys of its objects are in order and not repeated, and
its integers have 64 bits. -/
structure JsonValue where
  value : Json
  sorted : value.Sorted
  fits : value.Fits

namespace JsonValue

/-- The exact comparison is an equivalence, the lenient one is reflexive and transitive, and two
values match exactly when each has all of the other. A lenient match stands when objects of the
actual value get further keys. -/
theorem valuesMatch_relations :
    Equivalence (fun e a : JsonValue => valuesMatch .exact e.value a.value = true) ∧
    (∀ v : JsonValue, valuesMatch .lenient v.value v.value = true) ∧
    (∀ e a b : JsonValue, valuesMatch .lenient e.value a.value = true →
      valuesMatch .lenient a.value b.value = true → valuesMatch .lenient e.value b.value = true) ∧
    (∀ e a : JsonValue, valuesMatch .exact e.value a.value = true ↔
      valuesMatch .lenient e.value a.value = true ∧ valuesMatch .lenient a.value e.value = true) ∧
    ∀ e a a' : Json, Relation.ReflTransGen Json.Adds a a' → valuesMatch .lenient e a = true →
      valuesMatch .lenient e a' = true := by
  refine ⟨⟨fun v => valuesMatch_refl v.sorted, fun {e a} h => valuesMatch_exact_symm e.sorted h,
    fun {e a b} hea hab => valuesMatch_trans e.fits a.fits b.fits hea hab⟩,
    fun v => valuesMatch_refl v.sorted,
    fun e a b hea hab => valuesMatch_trans e.fits a.fits b.fits hea hab, fun e a => ⟨?_, ?_⟩, ?_⟩
  · intro h
    exact ⟨valuesMatch_lenient_of_exact h,
      valuesMatch_lenient_of_exact (valuesMatch_exact_symm e.sorted h)⟩
  · rintro ⟨hea, hae⟩
    exact valuesMatch_exact_of_lenient e.sorted a.sorted hea hae
  · intro e a a' hadds he
    induction hadds with
    | refl => exact he
    | tail _ hstep ih => exact valuesMatch_of_adds hstep ih

/-- An order with a price, which is written as an integer or as a double. -/
def priced (n : Number) : Json :=
  .obj [("lines", .arr [.obj [("price", .num n)]]), ("note", .str "rush")]

def two : Double := ⟨false, 2 ^ 52, -51, by decide⟩

def order (n : Number) (h : n.Fits) : JsonValue where
  value := priced n
  sorted := by
    have hkeys : "lines" < "note" := by decide
    simpa only [priced, Json.Sorted, Json.SortedFields, Json.SortedItems, List.pairwise_cons,
      List.mem_singleton, forall_eq, List.not_mem_nil, false_imp_iff, implies_true,
      List.Pairwise.nil, and_true] using hkeys
  fits := by
    refine .obj fun key v hv => ?_
    rcases List.mem_cons.mp hv with heq | hv
    · cases heq
      refine .arr fun line hline => ?_
      obtain rfl := List.mem_singleton.mp hline
      refine .obj fun key v hv => ?_
      cases List.mem_singleton.mp hv
      exact .num h
    · cases List.mem_singleton.mp hv
      exact .str _

def taxed : Json :=
  .obj [("lines", .arr [.obj [("price", .num (.float two)), ("tax", .null)]]),
    ("note", .str "rush")]

theorem valuesMatch_relations_order :
    let whole := order (.int 2) ⟨by decide, by decide⟩
    let double := order (.float two) trivial
    valuesMatch .exact whole.value double.value = true ∧
      valuesMatch .exact double.value whole.value = true ∧
      double.value.Adds taxed ∧ valuesMatch .lenient whole.value taxed = true := by
  intro whole double
  obtain ⟨hexact, -, -, hboth, hadds⟩ := valuesMatch_relations
  have hmatch : valuesMatch .exact whole.value double.value = true := by decide
  have htaxed : double.value.Adds taxed := by
    let line : Fields := [("price", .num (.float two))]
    have hnone : Fields.get? "tax" line = none := rfl
    have hlines : Fields.get? "lines" [("lines", .arr [.obj line]), ("note", .str "rush")] =
        some (.arr [.obj line]) := rfl
    have hitem : [Json.obj line][0]? = some (.obj line) := rfl
    exact .entry hlines (.item hitem (.key .null hnone))
  exact ⟨hmatch, hexact.symm hmatch, htaxed,
    hadds _ _ _ (.single htaxed) ((hboth whole double).mp hmatch).1⟩

end JsonValue
end StateCheck
