import StateCheck.Condition.Eval
import StateCheck.Proofs.Number.Value
/-!
The comparisons that go by an order.

Strings, numbers and timestamps have five comparisons each, one for every relation
(`Condition.Family.comparison`). Two values of the kind of a family are always comparable, and
changing their sides reverses their order (`Condition.Family.order?_swap`); so of less, equal and
greater exactly one holds, and none of a family's comparisons holds of other values.
-/
namespace StateCheck
set_option autoImplicit false

theorem Timestamp.cmp_swap (a b : Timestamp) : b.cmp a = (a.cmp b).swap := by
  have hseconds : compare b.seconds a.seconds = (compare a.seconds b.seconds).swap :=
    Std.OrientedCmp.eq_swap
  have hnanos : compare b.nanos a.nanos = (compare a.nanos b.nanos).swap :=
    Std.OrientedCmp.eq_swap
  rw [cmp, cmp, Ordering.swap_then, hseconds, hnanos]

namespace Condition

/-! ## Relations -/

/-- The relation that holds with the two sides exchanged. -/
def Relation.converse : Relation → Relation
  | .eq => .eq
  | .lt => .gt
  | .gt => .lt
  | .le => .ge
  | .ge => .le

theorem Relation.holds_swap (r : Relation) (o : Ordering) : r.converse.holds o.swap = r.holds o := by
  cases r <;> cases o <;> rfl

theorem related_swap (r : Relation) (o : Option Ordering) :
    related r.converse (o.map Ordering.swap) = related r o := by
  cases o with
  | none => rfl
  | some o => exact r.holds_swap o

/-- Of less, equal and greater one relation holds of an order. -/
theorem exists_unique_related (o : Ordering) :
    ∃! r, r ∈ [Relation.lt, .eq, .gt] ∧ related r (some o) = true := by
  cases o with
  | lt => exact ⟨.lt, by decide, fun r => by cases r <;> decide⟩
  | eq => exact ⟨.eq, by decide, fun r => by cases r <;> decide⟩
  | gt => exact ⟨.gt, by decide, fun r => by cases r <;> decide⟩

theorem related_le (o : Option Ordering) : related .le o = (related .lt o || related .eq o) := by
  cases o with
  | none => rfl
  | some o => cases o <;> rfl

theorem related_ge (o : Option Ordering) : related .ge o = (related .gt o || related .eq o) := by
  cases o with
  | none => rfl
  | some o => cases o <;> rfl

/-! ## Families -/

/-- The kinds of values with an order. -/
inductive Family where
  | string
  | numeric
  | timestamp
deriving DecidableEq, Repr

namespace Family

/-- The comparison of a family that asks for a relation. -/
def comparison : Family → Relation → Comparison
  | string, .eq => .stringEquals
  | string, .lt => .stringLessThan
  | string, .gt => .stringGreaterThan
  | string, .le => .stringLessThanEquals
  | string, .ge => .stringGreaterThanEquals
  | numeric, .eq => .numericEquals
  | numeric, .lt => .numericLessThan
  | numeric, .gt => .numericGreaterThan
  | numeric, .le => .numericLessThanEquals
  | numeric, .ge => .numericGreaterThanEquals
  | timestamp, .eq => .timestampEquals
  | timestamp, .lt => .timestampLessThan
  | timestamp, .gt => .timestampGreaterThan
  | timestamp, .le => .timestampLessThanEquals
  | timestamp, .ge => .timestampGreaterThanEquals

/-- The value is of the kind of the family. -/
def Has : Family → Json → Prop
  | string, v => ∃ s, v = .str s
  | numeric, v => ∃ n, v = .num n
  | timestamp, v => ∃ s t, v = .str s ∧ Timestamp.parse? s = some t

def order? : Family → Json → Json → Option Ordering
  | string => cmpStrings?
  | numeric => Json.cmpNumbers?
  | timestamp => cmpTimestamps?

variable {f : Family} {l r : Json}

theorem compares_eq (f : Family) (rel : Relation) (l r : Json) :
    compares (f.comparison rel) l r = related rel (f.order? l r) := by
  cases f <;> cases rel <;> rfl

theorem isTypeTest_comparison (f : Family) (rel : Relation) :
    (f.comparison rel).isTypeTest = false := by
  cases f <;> cases rel <;> rfl

theorem timestamp?_eq_some_iff {v : Json} {t : Timestamp} :
    timestamp? v = some t ↔ ∃ s, v = .str s ∧ Timestamp.parse? s = some t := by
  cases v <;> simp [timestamp?, Json.asString?]

theorem exists_order? (hl : f.Has l) (hr : f.Has r) : ∃ o, f.order? l r = some o := by
  cases f with
  | string =>
    obtain ⟨s, rfl⟩ := hl
    obtain ⟨t, rfl⟩ := hr
    exact ⟨compare s t, rfl⟩
  | numeric =>
    obtain ⟨m, rfl⟩ := hl
    obtain ⟨n, rfl⟩ := hr
    exact m.exists_cmp? n
  | timestamp =>
    obtain ⟨s, a, hs, ha⟩ := hl
    obtain ⟨t, b, ht, hb⟩ := hr
    have hleft : timestamp? l = some a := timestamp?_eq_some_iff.mpr ⟨s, hs, ha⟩
    have hright : timestamp? r = some b := timestamp?_eq_some_iff.mpr ⟨t, ht, hb⟩
    exact ⟨a.cmp b, by rw [order?, cmpTimestamps?, hleft, hright]⟩

theorem has_of_order? {o : Ordering} (h : f.order? l r = some o) : f.Has l ∧ f.Has r := by
  cases f with
  | string =>
    rw [order?, cmpStrings?.eq_def] at h
    split at h
    · exact ⟨⟨_, rfl⟩, ⟨_, rfl⟩⟩
    · cases h
  | numeric =>
    rw [order?, Json.cmpNumbers?.eq_def] at h
    split at h
    · exact ⟨⟨_, rfl⟩, ⟨_, rfl⟩⟩
    · cases h
  | timestamp =>
    rw [order?, cmpTimestamps?] at h
    split at h
    · rename_i a b hleft hright
      obtain ⟨s, hs⟩ := timestamp?_eq_some_iff.mp hleft
      obtain ⟨t, ht⟩ := timestamp?_eq_some_iff.mp hright
      exact ⟨⟨s, a, hs⟩, ⟨t, b, ht⟩⟩
    · cases h

theorem order?_eq_none (h : ¬(f.Has l ∧ f.Has r)) : f.order? l r = none := by
  cases ho : f.order? l r with
  | none => rfl
  | some o => exact absurd (has_of_order? ho) h

theorem order?_swap (f : Family) (l r : Json) :
    f.order? r l = (f.order? l r).map Ordering.swap := by
  cases f with
  | string =>
    cases l with
    | str s =>
      cases r with
      | str t => exact congrArg some Std.OrientedCmp.eq_swap
      | _ => rfl
    | _ => cases r <;> rfl
  | numeric =>
    cases l with
    | num m =>
      cases r with
      | num n => exact m.cmp?_swap n
      | _ => rfl
    | _ => cases r <;> rfl
  | timestamp =>
    rw [order?, cmpTimestamps?, cmpTimestamps?]
    cases timestamp? l with
    | none => cases timestamp? r <;> rfl
    | some a =>
      cases timestamp? r with
      | none => rfl
      | some b => exact congrArg some (a.cmp_swap b)

/-! ## Tests -/

variable {docs : Documents} {subject : String}

theorem evalTest_literal (f : Family) (rel : Relation) (r : Json)
    (hl : Path.resolve subject docs = .ok l) :
    evalTest subject (f.comparison rel) (.literal r) docs = .ok (related rel (f.order? l r)) := by
  rw [← f.compares_eq, evalTest, f.isTypeTest_comparison, hl]
  rfl

theorem evalTest_path (f : Family) (rel : Relation) {text : String}
    (hl : Path.resolve subject docs = .ok l) (hr : Path.resolve text docs = .ok r) :
    evalTest subject (f.comparison rel) (.path text) docs = .ok (related rel (f.order? l r)) := by
  rw [← f.compares_eq, evalTest, f.isTypeTest_comparison, hl]
  dsimp only
  rw [hr]
  rfl

/-- Of two values of the kind of a family exactly one is less, equal or greater; the other two
relations follow from these, no relation holds of other values, and none fails. The relation with
the sides exchanged is the converse, and an operand that a path finds counts as if it were
written. -/
theorem evalTest_trichotomy (f : Family) (r : Json) (hl : Path.resolve subject docs = .ok l) :
    ∃ holds : Relation → Bool,
      (∀ rel, evalTest subject (f.comparison rel) (.literal r) docs = .ok (holds rel)) ∧
      (f.Has l → f.Has r → ∃! rel, rel ∈ [Relation.lt, .eq, .gt] ∧ holds rel = true) ∧
      holds .le = (holds .lt || holds .eq) ∧
      holds .ge = (holds .gt || holds .eq) ∧
      (¬(f.Has l ∧ f.Has r) → ∀ rel, holds rel = false) ∧
      (∀ subject' docs', Path.resolve subject' docs' = .ok r → ∀ rel,
        evalTest subject' (f.comparison rel.converse) (.literal l) docs' = .ok (holds rel)) ∧
      (∀ text, Path.resolve text docs = .ok r → ∀ rel,
        evalTest subject (f.comparison rel) (.path text) docs = .ok (holds rel)) := by
  refine ⟨fun rel => related rel (f.order? l r), fun rel => evalTest_literal f rel r hl,
    fun hleft hright => ?_, related_le _, related_ge _, fun hkind rel => ?_,
    fun subject' docs' hr rel => ?_, fun text hr rel => evalTest_path f rel hl hr⟩
  · obtain ⟨o, ho⟩ := exists_order? hleft hright
    rw [ho]
    exact exists_unique_related o
  · rw [order?_eq_none hkind]
    rfl
  · rw [evalTest_literal f rel.converse l hr, f.order?_swap l r, related_swap]

/-- Ten o'clock where the clock is two hours ahead comes before nine o'clock in UTC. -/
theorem evalTest_trichotomy_clocks :
    let early := Json.str "2024-01-01T10:00:00+02:00"
    let late := Json.str "2024-01-01T09:00:00Z"
    let docs : Documents := ⟨.obj [("at", early), ("until", late)], .null⟩
    Path.resolve "$.at" docs = .ok early ∧ Path.resolve "$.until" docs = .ok late ∧
      timestamp.Has early ∧ timestamp.Has late ∧ ¬numeric.Has early ∧
      (∃ holds : Relation → Bool, (∃! rel, rel ∈ [Relation.lt, .eq, .gt] ∧ holds rel = true) ∧
        evalTest "$.at" .timestampLessThan (.path "$.until") docs = .ok (holds .lt) ∧
        evalTest "$.until" .timestampGreaterThan (.literal early) docs = .ok (holds .lt) ∧
        holds .lt = true) ∧
      evalTest "$.at" .numericEquals (.literal late) docs = .ok false := by
  intro early late docs
  have hat : Path.resolve "$.at" docs = .ok early := by cbv
  have huntil : Path.resolve "$.until" docs = .ok late := by cbv
  have hearly : timestamp.Has early := ⟨_, ⟨1704096000, 0, 7200⟩, rfl, by decide⟩
  have hlate : timestamp.Has late := ⟨_, ⟨1704099600, 0, 0⟩, rfl, by decide⟩
  have hnumber : ¬numeric.Has early := by
    rintro ⟨n, hnum⟩
    exact Json.noConfusion hnum
  obtain ⟨holds, hliteral, hone, -, -, -, hswap, hpath⟩ := evalTest_trichotomy timestamp late hat
  obtain ⟨others, hother, -, -, -, hnone, -⟩ := evalTest_trichotomy numeric late hat
  have hless : related .lt (timestamp.order? early late) = true := by decide
  have hlt : holds .lt = true := by
    rw [← hless]
    exact Except.ok.inj ((hliteral .lt).symm.trans (evalTest_literal timestamp .lt late hat))
  refine ⟨hat, huntil, hearly, hlate, hnumber, ⟨holds, hone hearly hlate, hpath _ huntil .lt,
    hswap _ docs huntil .lt, hlt⟩, ?_⟩
  exact (hother .eq).trans (congrArg Except.ok (hnone (fun h => hnumber h.1) .eq))

end Family
end Condition
end StateCheck
