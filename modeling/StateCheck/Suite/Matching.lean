import StateCheck.Suite.Basic
/-!
Comparing what was expected with what happened.

Numbers are compared by value. An exact comparison wants the same keys and the same path; a lenient
one lets the actual objects have further keys and the actual path further states.
-/
namespace StateCheck
set_option autoImplicit false

mutual
def valuesMatch (mode : MatchMode) : Json → Json → Bool
  | .num e, .num a => e.cmp? a == some .eq
  | .obj e, .obj a =>
    (mode == .lenient || e.length == a.length) && fieldsMatch mode e a
  | .arr e, .arr a => itemsMatch mode e a
  | e, a => e == a

def fieldsMatch (mode : MatchMode) : List (String × Json) → Fields → Bool
  | [], _ => true
  | (key, e) :: rest, actual =>
    (match Fields.get? key actual with
      | some a => valuesMatch mode e a
      | none => false) && fieldsMatch mode rest actual

def itemsMatch (mode : MatchMode) : List Json → List Json → Bool
  | [], [] => true
  | e :: es, a :: as => valuesMatch mode e a && itemsMatch mode es as
  | _, _ => false
end

theorem valuesMatch_of_kindName_ne {mode : MatchMode} {e a : Json} (h : e.kindName ≠ a.kindName) :
    valuesMatch mode e a = false := by
  cases e <;> cases a <;> first | rfl | exact absurd rfl h

theorem valuesMatch_obj (mode : MatchMode) (e a : Fields) : valuesMatch mode (.obj e) (.obj a) =
    ((mode == .lenient || e.length == a.length) && fieldsMatch mode e a) := rfl

theorem valuesMatch_arr (mode : MatchMode) (e a : List Json) :
    valuesMatch mode (.arr e) (.arr a) = itemsMatch mode e a := rfl

/-- Whether the expected names come in an actual path in this order; each search goes on after the
name found before. -/
def occursInOrder : List String → List String → Bool
  | [], _ => true
  | _ :: _, [] => false
  | e :: es, a :: as => if e = a then occursInOrder es as else occursInOrder (e :: es) as

def pathMatches (mode : MatchMode) (expected actual : List String) : Bool :=
  match mode with
  | .exact => expected == actual
  | .lenient => occursInOrder expected actual

def pathListsMatch (mode : MatchMode) (expected actual : List (List String)) : Bool :=
  expected.length == actual.length &&
    (expected.zip actual).all fun (e, a) => pathMatches mode e a

end StateCheck
