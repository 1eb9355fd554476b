import StateCheck.Proofs.Mock.Pattern
import StateCheck.Proofs.Suite.Matching
/-!
The operators for equality.

A pattern without objects compares all its numbers by value, and so does the operator `$eq` with a
number. Inside an array the operator takes numbers as they are written: it matches what the pattern
matches except where two numbers at one place are equal by value but not the same
(`Pattern.equality_operators`).
-/
namespace StateCheck
set_option autoImplicit false

namespace Json

/-- The value has no object at any depth. -/
inductive ObjectFree : Json → Prop
  | scalar {v : Json} : v.isScalar = true → ObjectFree v
  | arr {items : List Json} : (∀ v ∈ items, ObjectFree v) → ObjectFree (.arr items)

/-- At some place of the two values stand numbers that are equal by value but not the same. -/
inductive Respelled : Json → Json → Prop
  | num {m n : Number} : m.cmp? n = some .eq → m.same n = false → Respelled (.num m) (.num n)
  | item {items values : List Json} {i : Nat} {v w : Json} : items[i]? = some v →
      values[i]? = some w → Respelled v w → Respelled (.arr items) (.arr values)

theorem same_num_iff {m : Number} {w : Json} :
    (Json.num m).same w = true ↔ ∃ n, w = .num n ∧ m.same n = true := by
  constructor
  · intro h
    cases w with
    | num n => exact ⟨n, rfl, h⟩
    | _ => cases h
  · rintro ⟨n, rfl, h⟩
    exact h

theorem sameItems_iff {items values : List Json} : sameItems items values = true ↔
    List.Forall₂ (fun v w => v.same w = true) items values := by
  induction items generalizing values with
  | nil => cases values <;> simp [sameItems]
  | cons v rest ih =>
    cases values with
    | nil => simp [sameItems]
    | cons w more => rw [sameItems, Bool.and_eq_true, ih, List.forall₂_cons]

theorem same_arr_iff {items : List Json} {w : Json} : (Json.arr items).same w = true ↔
    ∃ values, w = .arr values ∧ List.Forall₂ (fun v w => v.same w = true) items values := by
  constructor
  · intro h
    cases w with
    | arr values => exact ⟨values, rfl, sameItems_iff.mp h⟩
    | _ => cases h
  · rintro ⟨values, rfl, h⟩
    exact sameItems_iff.mpr h

end Json

namespace Pattern

open Json

/-! ## Two equalities -/

theorem same_num_iff_match {m : Number} (a : Json) : (Json.num m).same a = true ↔
    valuesMatch .lenient (.num m) a = true ∧ ¬(Json.num m).Respelled a := by
  rw [same_num_iff, valuesMatch_num_iff]
  constructor
  · rintro ⟨n, rfl, hsame⟩
    refine ⟨⟨n, rfl, Number.cmp?_of_same hsame⟩, fun hrespelled => ?_⟩
    cases hrespelled with
    | num _ hother =>
      rw [hsame] at hother
      cases hother
  · rintro ⟨⟨n, rfl, hcmp⟩, hnot⟩
    refine ⟨n, rfl, ?_⟩
    by_contra hother
    exact hnot (.num hcmp (Bool.eq_false_iff.mpr hother))

theorem same_arr_iff_match {items : List Json}
    (hitems : ∀ v ∈ items, ∀ w, v.same w = true ↔
      valuesMatch .lenient v w = true ∧ ¬v.Respelled w) (a : Json) :
    (Json.arr items).same a = true ↔
      valuesMatch .lenient (.arr items) a = true ∧ ¬(Json.arr items).Respelled a := by
  rw [same_arr_iff, valuesMatch_arr_iff]
  constructor
  · rintro ⟨values, rfl, hsame⟩
    obtain ⟨hlength, hsame⟩ := List.forall₂_iff_get.mp hsame
    refine ⟨⟨values, rfl, List.forall₂_iff_get.mpr ⟨hlength, fun i hi hi' => ?_⟩⟩,
      fun hrespelled => ?_⟩
    · exact ((hitems _ (List.get_mem ..) _).mp (hsame i hi hi')).1
    · cases hrespelled with
      | item hv hw hinner =>
        obtain ⟨hi, rfl⟩ := List.getElem?_eq_some_iff.mp hv
        obtain ⟨hi', rfl⟩ := List.getElem?_eq_some_iff.mp hw
        exact ((hitems _ (List.getElem_mem hi) _).mp (hsame _ hi hi')).2 hinner
  · rintro ⟨⟨values, rfl, hmatch⟩, hnot⟩
    obtain ⟨hlength, hmatch⟩ := List.forall₂_iff_get.mp hmatch
    refine ⟨values, rfl, List.forall₂_iff_get.mpr ⟨hlength, fun i hi hi' => ?_⟩⟩
    refine (hitems _ (List.get_mem ..) _).mpr ⟨hmatch i hi hi', fun hinner => hnot ?_⟩
    exact .item (List.getElem?_eq_getElem hi) (List.getElem?_eq_getElem hi') hinner

/-- A value without objects is the same as another when the two match and none of the numbers in
the one is written in another way in the other. -/
theorem same_iff {v : Json} (hv : v.ObjectFree) (a : Json) :
    v.same a = true ↔ valuesMatch .lenient v a = true ∧ ¬v.Respelled a := by
  induction v using Json.induction generalizing a with
  | leaf v hscalar hnumber =>
    have hsame : v.same a = valuesMatch .lenient v a := by
      cases v with
      | num n => cases hnumber
      | arr items => cases hscalar
      | obj fields => cases hscalar
      | _ => cases a <;> rfl
    rw [hsame]
    refine (and_iff_left fun hrespelled => ?_).symm
    cases hrespelled with
    | num => cases hnumber
    | item => cases hscalar
  | number m => exact same_num_iff_match a
  | array items ih =>
    cases hv with
    | scalar hscalar => cases hscalar
    | arr hitems => exact same_arr_iff_match (fun v hmem => ih v hmem (hitems v hmem)) a
  | object fields ih =>
    cases hv with
    | scalar hscalar => cases hscalar

theorem itemsOperatorFree_of_forall {items : List Json} (h : ∀ v ∈ items, OperatorFree v) :
    ItemsOperatorFree items := by
  induction items with
  | nil => trivial
  | cons v rest ih =>
    rw [ItemsOperatorFree]
    exact ⟨h v (List.mem_cons_self ..), ih fun w hw => h w (List.mem_cons_of_mem _ hw)⟩

theorem operatorFree_of_objectFree {v : Json} (hv : v.ObjectFree) : OperatorFree v := by
  induction hv with
  | @scalar v hscalar =>
    cases v with
    | arr items => cases hscalar
    | obj fields => cases hscalar
    | _ => trivial
  | arr _ ih => exact itemsOperatorFree_of_forall ih

/-! ## Operators -/

theorem holds_operator {op : String} (hop : op.startsWith "$" = true) (arg : Json)
    (actual : Option Json) : holds (.obj [(op, arg)]) actual = operatorMatches op arg actual := by
  have hoperators : isOperators [(op, arg)] = true := by
    simp [isOperators, hop, -String.startsWith_string_iff]
  simp [holds, hoperators]

theorem holds_eq (v : Json) (actual : Option Json) :
    holds (.obj [("$eq", v)]) actual = actual.any (leafEquals v) := by
  rw [holds_operator (by simp)]
  cases actual <;> rfl

theorem holds_ne (v : Json) (actual : Option Json) :
    holds (.obj [("$ne", v)]) actual = !actual.any (leafEquals v) := by
  rw [holds_operator (by simp)]
  cases actual <;> rfl

theorem holds_in (options : List Json) (actual : Option Json) :
    holds (.obj [("$in", .arr options)]) actual =
      options.any fun o => actual.any (leafEquals o) := by
  rw [holds_operator (by simp)]
  cases actual with
  | none => simp [operatorMatches]
  | some a => rfl

/-- `$eq` finds what a value without objects matches as a pattern, except where the numbers in an
array are written in another way. -/
theorem leafEquals_iff {v : Json} (hv : v.ObjectFree) (a : Json) : leafEquals v a = true ↔
    valuesMatch .lenient v a = true ∧ ¬(v.isArray = true ∧ v.Respelled a) := by
  cases v with
  | arr items =>
    have hleaf : leafEquals (.arr items) a = (Json.arr items).same a := rfl
    rw [hleaf, same_iff hv]
    simp [Json.isArray, Json.asArray?]
  | obj fields =>
    cases hv with
    | scalar hscalar => cases hscalar
  | _ =>
    rw [leafEquals_eq_valuesMatch rfl rfl]
    exact (and_iff_left fun h => nomatch h.1).symm

/-- `$eq` with a value without objects matches what the value matches as a pattern, a missing field
neither, except where two numbers inside an array are equal by value and written in two ways. `$in`
matches what one of its options matches with `$eq`, and `$ne` what `$eq` does not. -/
theorem equality_operators {v : Json} (hv : v.ObjectFree) (actual : Option Json) :
    (holds (.obj [("$eq", v)]) actual = true ↔ holds v actual = true ∧
      ¬∃ a, actual = some a ∧ v.isArray = true ∧ v.Respelled a) ∧
    (∀ options : List Json, holds (.obj [("$in", .arr options)]) actual =
      options.any fun o => holds (.obj [("$eq", o)]) actual) ∧
    holds (.obj [("$ne", v)]) actual = !holds (.obj [("$eq", v)]) actual := by
  refine ⟨?_, fun options => ?_, ?_⟩
  · rw [holds_eq, holds_of_operatorFree v (operatorFree_of_objectFree hv)]
    cases actual with
    | none => simp
    | some a =>
      rw [Option.any_some, Option.any_some, leafEquals_iff hv]
      simp
  · rw [holds_in]
    simp only [holds_eq]
  · rw [holds_ne, holds_eq]

/-- Sizes with a number of each kind, one of them in an inner array. -/
def sizes : Json := .arr [.num (.int 1), .arr [.num (.float JsonValue.two), .str "cm"]]

theorem equality_operators_sizes :
    sizes.ObjectFree ∧ holds (.obj [("$eq", sizes)]) (some sizes) = true ∧
      holds sizes (some sizes) = true ∧
      holds (.obj [("$in", .arr [.null, sizes])]) (some sizes) = true ∧
      holds (.obj [("$ne", sizes)]) none = true := by
  have hfree : sizes.ObjectFree := by
    refine .arr fun v hv => ?_
    rcases List.mem_cons.mp hv with rfl | hv
    · exact .scalar rfl
    obtain rfl := List.mem_singleton.mp hv
    refine .arr fun v hv => ?_
    rcases List.mem_cons.mp hv with rfl | hv
    · exact .scalar rfl
    obtain rfl := List.mem_singleton.mp hv
    exact .scalar rfl
  have hmatch : holds (.obj [("$eq", sizes)]) (some sizes) = true := by
    rw [holds_eq]
    decide
  obtain ⟨heq, hin, -⟩ := equality_operators hfree (some sizes)
  obtain ⟨-, -, hne⟩ := equality_operators hfree none
  refine ⟨hfree, hmatch, (heq.mp hmatch).1, ?_, ?_⟩
  · rw [hin, List.any_eq_true]
    exact ⟨sizes, by simp, hmatch⟩
  · rw [hne, holds_eq]
    rfl

/-- One as an integer and as a double are equal by value, so that an array of the one matches an
array of the other as a pattern. Under `$eq` it does not. -/
theorem equality_operators_respelled :
    let one := Json.arr [.num (.int 1)]
    let actual := Json.arr [.num (.float ⟨false, 2 ^ 52, -52, by decide⟩)]
    one.ObjectFree ∧ holds one (some actual) = true ∧
      holds (.obj [("$eq", one)]) (some actual) = false := by
  intro one actual
  refine ⟨.arr fun v hv => ?_, by decide, ?_⟩
  · obtain rfl := List.mem_singleton.mp hv
    exact .scalar rfl
  · rw [holds_eq]
    decide

end Pattern
end StateCheck
