import StateCheck.Number.Basic
/-!
JSON values.

An object is the list of its entries. The readers and the operations on data keep the entries of an
object sorted by key without repetition (`Json.Sorted`), so such a value has one representation;
keys are ordered by code points, which is the order of their UTF-8 bytes. Only records that are
about to be printed list their entries in the order of their fields. `Fields` holds the operations
on entries: look up, insert, union.
-/
namespace StateCheck
set_option autoImplicit false

inductive Json where
  | null
  | bool (value : Bool)
  | num (value : Number)
  | str (value : String)
  | arr (items : List Json)
  | obj (fields : List (String × Json))
deriving Inhabited

abbrev Fields := List (String × Json)

namespace Fields

def get? (key : String) : Fields → Option Json
  | [] => none
  | (k, v) :: rest => if k = key then some v else get? key rest

/-- The entries with `key` set to `value`, at its sorted place. -/
def insert (key : String) (value : Json) : Fields → Fields
  | [] => [(key, value)]
  | (k, v) :: rest =>
    if key = k then (key, value) :: rest
    else if key < k then (key, value) :: (k, v) :: rest
    else (k, v) :: insert key value rest

/-- Entries sorted by key; of a repeated key the last value stays. -/
def ofList (entries : List (String × Json)) : Fields :=
  entries.foldl (fun fields (key, value) => insert key value fields) []

/-- The entries of both, those of the second winning. -/
def union (left right : Fields) : Fields :=
  right.foldl (fun fields (key, value) => insert key value fields) left

def keys (fields : Fields) : List String := fields.map (·.1)

theorem mem_of_get? {key : String} {value : Json} {fields : Fields}
    (h : get? key fields = some value) : (key, value) ∈ fields := by
  fun_induction get? key fields with
  | case1 => cases h
  | case2 v rest => exact Option.some.inj h ▸ List.mem_cons_self ..
  | case3 k v rest _ ih => exact List.mem_cons_of_mem _ (ih h)

@[simp] theorem get?_insert_self (key : String) (value : Json) (fields : Fields) :
    get? key (insert key value fields) = some value := by
  fun_induction insert key value fields with
  | case1 => simp [get?]
  | case2 => simp [get?]
  | case3 => simp [get?]
  | case4 k v rest hne _ ih => rw [get?, if_neg (Ne.symm hne), ih]

theorem get?_insert_of_ne {key other : String} (h : other ≠ key) (value : Json)
    (fields : Fields) : get? other (insert key value fields) = get? other fields := by
  fun_induction insert key value fields with
  | case1 => simp [get?, Ne.symm h]
  | case2 v rest => simp [get?, Ne.symm h]
  | case3 k v rest => simp [get?, Ne.symm h]
  | case4 k v rest _ _ ih => rw [get?, get?, ih]

theorem insert_insert (key : String) (first second : Json) (fields : Fields) :
    insert key second (insert key first fields) = insert key second fields := by
  fun_induction insert key first fields with
  | case1 => simp [insert]
  | case2 => simp [insert]
  | case3 k v rest hne hlt => simp [insert, hne, hlt]
  | case4 k v rest hne hlt ih => simp [insert, hne, hlt, ih]

end Fields

namespace Json

/-! ## Equality

Values are equal when they have the same shape and equal leaves; numbers are compared by
`Number.same`. -/

mutual
def same : Json → Json → Bool
  | .null, .null => true
  | .bool a, .bool b => a == b
  | .num a, .num b => a.same b
  | .str a, .str b => a == b
  | .arr a, .arr b => sameItems a b
  | .obj a, .obj b => sameFields a b
  | _, _ => false

def sameItems : List Json → List Json → Bool
  | [], [] => true
  | a :: as, b :: bs => a.same b && sameItems as bs
  | _, _ => false

def sameFields : List (String × Json) → List (String × Json) → Bool
  | [], [] => true
  | (k, a) :: as, (l, b) :: bs => k == l && a.same b && sameFields as bs
  | _, _ => false
end

instance : BEq Json := ⟨same⟩

/-! ## Sorted objects -/

mutual
/-- Every object in the value has its keys in strictly increasing order. -/
def Sorted : Json → Prop
  | .arr items => SortedItems items
  | .obj fields => fields.Pairwise (fun a b => a.1 < b.1) ∧ SortedFields fields
  | _ => True

def SortedItems : List Json → Prop
  | [] => True
  | v :: rest => v.Sorted ∧ SortedItems rest

def SortedFields : List (String × Json) → Prop
  | [] => True
  | (_, v) :: rest => v.Sorted ∧ SortedFields rest
end

/-! ## Views -/

def empty : Json := .obj []

def object (entries : List (String × Json)) : Json := .obj (Fields.ofList entries)

def ofNat (n : Nat) : Json := .num (.int n)

def ofInt (n : Int) : Json := .num (.int n)

/-- A double as a value: an infinite one or none at all is null. -/
def ofBinary64 : Binary64 → Json
  | .finite x => .num (.float x)
  | _ => .null

def ofStrings (items : List String) : Json := .arr (items.map .str)

def ofOption : Option Json → Json
  | some v => v
  | none => .null

def asString? : Json → Option String
  | .str s => some s
  | _ => none

def asBool? : Json → Option Bool
  | .bool b => some b
  | _ => none

def asArray? : Json → Option (List Json)
  | .arr items => some items
  | _ => none

def asFields? : Json → Option Fields
  | .obj fields => some fields
  | _ => none

def asNatural? : Json → Option Nat
  | .num n => n.toNatural?
  | _ => none

def asBinary64? : Json → Option Binary64
  | .num n => some n.toBinary64
  | _ => none

def isString (v : Json) : Bool := v.asString?.isSome

def isNumber : Json → Bool
  | .num _ => true
  | _ => false

def isBool (v : Json) : Bool := v.asBool?.isSome

def isNull : Json → Bool
  | .null => true
  | _ => false

def isObject (v : Json) : Bool := v.asFields?.isSome

def isArray (v : Json) : Bool := v.asArray?.isSome

/-- Null, a truth value, a number or a string: a value without parts. -/
def isScalar (v : Json) : Bool := !v.isObject && !v.isArray

def get? (v : Json) (key : String) : Option Json :=
  match v with
  | .obj fields => Fields.get? key fields
  | _ => none

theorem sizeOf_lookup_lt {key : String} {w : Json} {fields : Fields}
    (h : Fields.get? key fields = some w) : sizeOf w < sizeOf fields := by
  induction fields with
  | nil => simp [Fields.get?] at h
  | cons entry rest ih =>
    obtain ⟨k, v⟩ := entry
    simp only [Fields.get?] at h
    split at h
    · cases h
      simp only [List.cons.sizeOf_spec, Prod.mk.sizeOf_spec]
      omega
    · have := ih h
      simp only [List.cons.sizeOf_spec]
      omega

theorem sizeOf_get?_lt {v w : Json} {key : String} (h : v.get? key = some w) :
    sizeOf w < sizeOf v := by
  cases v with
  | obj fields =>
    have := sizeOf_lookup_lt h
    simp only [obj.sizeOf_spec]
    omega
  | _ => simp [get?] at h

def getString? (v : Json) (key : String) : Option String := (v.get? key).bind asString?

def getNatural? (v : Json) (key : String) : Option Nat := (v.get? key).bind asNatural?

/-- The name of the kind of a value, as error messages give it. -/
def kindName : Json → String
  | .null => "null"
  | .bool _ => "boolean"
  | .num _ => "number"
  | .str _ => "string"
  | .arr _ => "array"
  | .obj _ => "object"

def cmpNumbers? : Json → Json → Option Ordering
  | .num a, .num b => a.cmp? b
  | _, _ => none

/-- The value as a signed 64-bit integer, whole floats included. -/
def asInteger? : Json → Option Int
  | .num n => n.toInteger?
  | _ => none

end Json
end StateCheck
