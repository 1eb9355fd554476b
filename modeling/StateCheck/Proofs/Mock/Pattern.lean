import StateCheck.Mock.Pattern
import StateCheck.Suite.Matching
/-!
Patterns without operators.

The patterns of conditional mocks and the expectations of test cases are compared by two functions.
Where no object of a pattern holds operators (`Pattern.OperatorFree`), the pattern matches a value
exactly when a lenient comparison finds the value as the pattern expects it, and it matches no
missing value (`Pattern.holds_of_operatorFree`).
-/
namespace StateCheck
set_option autoImplicit false

namespace Pattern

mutual
/-- Every object in the pattern, if it has keys at all, has one that does not start with `$`. -/
def OperatorFree : Json → Prop
  | .arr items => ItemsOperatorFree items
  | .obj fields =>
    (fields ≠ [] → ∃ key ∈ Fields.keys fields, key.startsWith "$" = false) ∧
      FieldsOperatorFree fields
  | .null | .bool _ | .num _ | .str _ => True

def ItemsOperatorFree : List Json → Prop
  | [] => True
  | p :: rest => OperatorFree p ∧ ItemsOperatorFree rest

def FieldsOperatorFree : List (String × Json) → Prop
  | [] => True
  | (_, p) :: rest => OperatorFree p ∧ FieldsOperatorFree rest
end

theorem isOperators_eq_false_iff {fields : Fields} : isOperators fields = false ↔
    (fields ≠ [] → ∃ key ∈ fields.keys, key.startsWith "$" = false) := by
  simp [isOperators, Fields.keys, -String.startsWith_string_iff]

theorem leafEquals_eq_valuesMatch {p : Json} (hobj : p.isObject = false)
    (harr : p.isArray = false) (a : Json) : leafEquals p a = valuesMatch .lenient p a := by
  cases p with
  | obj fields => cases hobj
  | arr items => cases harr
  | _ => cases a <;> rfl

mutual
theorem holds_of_operatorFree : (p : Json) → OperatorFree p → (actual : Option Json) →
    holds p actual = actual.any (valuesMatch .lenient p)
  | .obj fields, h, actual => by
    simp only [OperatorFree] at h
    have hkeys := isOperators_eq_false_iff.mpr h.1
    cases actual with
    | none => simp [holds, hkeys]
    | some a =>
      cases a with
      | obj found =>
        simp [holds, hkeys, valuesMatch_obj, fieldsHold_of_operatorFree fields h.2 found]
      | _ =>
        rw [Option.any_some, valuesMatch_of_kindName_ne (by simp [Json.kindName])]
        simp [holds, hkeys]
  | .arr items, h, actual => by
    simp only [OperatorFree] at h
    cases actual with
    | none => simp [holds]
    | some a =>
      cases a with
      | arr values => simp [holds, valuesMatch_arr, itemsHold_of_operatorFree items h values]
      | _ =>
        rw [Option.any_some, valuesMatch_of_kindName_ne (by simp [Json.kindName])]
        simp [holds]
  | .null, _, actual => by
    rw [holds, funext (leafEquals_eq_valuesMatch (p := .null) rfl rfl)]
  | .bool b, _, actual => by
    rw [holds, funext (leafEquals_eq_valuesMatch (p := .bool b) rfl rfl)]
  | .num n, _, actual => by
    rw [holds, funext (leafEquals_eq_valuesMatch (p := .num n) rfl rfl)]
  | .str s, _, actual => by
    rw [holds, funext (leafEquals_eq_valuesMatch (p := .str s) rfl rfl)]

theorem fieldsHold_of_operatorFree : (fields : List (String × Json)) → FieldsOperatorFree fields →
    (found : Fields) → fieldsHold fields found = fieldsMatch .lenient fields found
  | [], _, _ => rfl
  | (key, sub) :: rest, h, found => by
    obtain ⟨hsub, hrest⟩ : OperatorFree sub ∧ FieldsOperatorFree rest := by
      simpa only [FieldsOperatorFree] using h
    rw [fieldsHold, fieldsMatch, holds_of_operatorFree sub hsub,
      fieldsHold_of_operatorFree rest hrest]
    -- A missing key matches for neither of the two.
    cases Fields.get? key found <;> rfl

theorem itemsHold_of_operatorFree : (items : List Json) → ItemsOperatorFree items →
    (values : List Json) → itemsHold items values = itemsMatch .lenient items values
  | [], _, [] => rfl
  | [], _, _ :: _ => rfl
  | _ :: _, _, [] => rfl
  | p :: ps, h, v :: vs => by
    obtain ⟨hp, hps⟩ : OperatorFree p ∧ ItemsOperatorFree ps := by
      simpa only [ItemsOperatorFree] using h
    rw [itemsHold, itemsMatch, holds_of_operatorFree p hp, itemsHold_of_operatorFree ps hps]
    rfl
end

/-- A pattern without operators matches a value exactly when the lenient comparison of test cases
finds that the value has all the pattern expects. -/
theorem holds_eq_valuesMatch (p a : Json) (h : OperatorFree p) :
    holds p (some a) = valuesMatch .lenient p a :=
  holds_of_operatorFree p h (some a)

/-- An order with nested parts, one of its keys starting with `$`. -/
def orderPattern : Json :=
  .obj [("$id", .num (.int 1)), ("lines", .arr [.obj [("price", .num (.float (.zero false)))]]),
    ("note", .obj [])]

def orderGiven : Json :=
  .obj [("$id", .num (.int 1)), ("lines", .arr [.obj [("price", .num (.int 0)), ("tax", .null)]]),
    ("note", .obj [("by", .str "clerk")]), ("open", .bool true)]

theorem holds_eq_valuesMatch_order : OperatorFree orderPattern ∧
    holds orderPattern (some orderGiven) = valuesMatch .lenient orderPattern orderGiven ∧
    holds orderPattern (some orderGiven) = true := by
  have hfree : OperatorFree orderPattern := by
    simp [orderPattern, OperatorFree, ItemsOperatorFree, FieldsOperatorFree, Fields.keys]
  have heq := holds_eq_valuesMatch orderPattern orderGiven hfree
  refine ⟨hfree, heq, ?_⟩
  rw [heq]
  decide

/-- An operator makes the difference: it is held to the value by the one and looked up as a key by
the other. -/
example : holds (.obj [("$exists", .bool true)]) (some .null) = true ∧
    valuesMatch .lenient (.obj [("$exists", .bool true)]) .null = false := by cbv

end Pattern
end StateCheck
