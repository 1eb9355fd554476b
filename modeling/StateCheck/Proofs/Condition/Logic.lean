import Mathlib.Data.List.Basic
import StateCheck.Condition.Eval
import StateCheck.Proofs.Results
/-!
Conditions as short-circuit logic.

`Condition.Decides` and `Condition.Reaches` say, without the evaluator, which truth value an
evaluation from left to right comes to and which tests it comes by. The evaluator gives exactly
these values, and fails exactly with the error of a test that is reached and fails
(`Condition.eval_eq_ok_iff`, `Condition.eval_eq_error_iff`). Where no test of the tree fails, the
value is the classical one (`Condition.truth`), to which the order of items does not matter
(`Condition.Reordered`).
-/
namespace StateCheck
set_option autoImplicit false

namespace Condition

/-! ## Trees -/

@[elab_as_elim]
theorem induction {motive : Condition → Prop}
    (and : ∀ items, (∀ c ∈ items, motive c) → motive (.and items))
    (or : ∀ items, (∀ c ∈ items, motive c) → motive (.or items))
    (not : ∀ inner, motive inner → motive (.not inner))
    (test : ∀ subject comparison operand, motive (.test subject comparison operand)) :
    (c : Condition) → motive c
  | .and items => and items fun c _ => induction and or not test c
  | .or items => or items fun c _ => induction and or not test c
  | .not inner => not inner (induction and or not test inner)
  | .test subject comparison operand => test subject comparison operand

/-- A test on data, the leaf of a condition. -/
structure DataTest where
  subject : String
  comparison : Comparison
  operand : Operand

def DataTest.outcome (t : DataTest) (docs : Documents) : Except EvalError Bool :=
  evalTest t.subject t.comparison t.operand docs

mutual
def tests : Condition → List DataTest
  | .and items => testsOf items
  | .or items => testsOf items
  | .not inner => tests inner
  | .test subject comparison operand => [⟨subject, comparison, operand⟩]

def testsOf : List Condition → List DataTest
  | [] => []
  | c :: rest => tests c ++ testsOf rest
end

mutual
/-- The classical truth value of a condition, from the values of its tests. -/
def truth (docs : Documents) : Condition → Bool
  | .and items => allTrue docs items
  | .or items => someTrue docs items
  | .not inner => !truth docs inner
  | .test subject comparison operand => (evalTest subject comparison operand docs).toOption.getD false

def allTrue (docs : Documents) : List Condition → Bool
  | [] => true
  | c :: rest => truth docs c && allTrue docs rest

def someTrue (docs : Documents) : List Condition → Bool
  | [] => false
  | c :: rest => truth docs c || someTrue docs rest
end

/-- The same condition but for the order of items, at any depth. -/
inductive Reordered : Condition → Condition → Prop
  | refl (c : Condition) : Reordered c c
  | trans {c d e : Condition} : Reordered c d → Reordered d e → Reordered c e
  -- one list is put into another order, or one item of a list is itself reordered
  | and {items others : List Condition} : items.Perm others → Reordered (.and items) (.and others)
  | or {items others : List Condition} : items.Perm others → Reordered (.or items) (.or others)
  | andItem (before after : List Condition) {c d : Condition} :
      Reordered c d → Reordered (.and (before ++ c :: after)) (.and (before ++ d :: after))
  | orItem (before after : List Condition) {c d : Condition} :
      Reordered c d → Reordered (.or (before ++ c :: after)) (.or (before ++ d :: after))
  | not {c d : Condition} : Reordered c d → Reordered (.not c) (.not d)

theorem testsOf_eq (items : List Condition) : testsOf items = items.flatMap tests := by
  induction items with
  | nil => rfl
  | cons c rest ih => rw [testsOf, ih, List.flatMap_cons]

theorem allTrue_eq (docs : Documents) (items : List Condition) :
    allTrue docs items = items.all (truth docs) := by
  induction items with
  | nil => rfl
  | cons c rest ih => rw [allTrue, ih, List.all_cons]

theorem someTrue_eq (docs : Documents) (items : List Condition) :
    someTrue docs items = items.any (truth docs) := by
  induction items with
  | nil => rfl
  | cons c rest ih => rw [someTrue, ih, List.any_cons]

theorem Reordered.tests_perm {c d : Condition} (h : Reordered c d) : (tests c).Perm (tests d) := by
  induction h with
  | refl c => exact .refl _
  | trans _ _ ih ih' => exact ih.trans ih'
  | and h => simpa only [tests, testsOf_eq] using h.flatMap_right tests
  | or h => simpa only [tests, testsOf_eq] using h.flatMap_right tests
  | andItem before after _ ih =>
    simp only [tests, testsOf_eq, List.flatMap_append, List.flatMap_cons]
    exact (ih.append_right _).append_left _
  | orItem before after _ ih =>
    simp only [tests, testsOf_eq, List.flatMap_append, List.flatMap_cons]
    exact (ih.append_right _).append_left _
  | not _ ih => simpa only [tests] using ih

theorem Reordered.truth_eq {c d : Condition} (h : Reordered c d) (docs : Documents) :
    truth docs c = truth docs d := by
  induction h with
  | refl c => rfl
  | trans _ _ ih ih' => exact ih.trans ih'
  | and h => simpa only [truth, allTrue_eq] using h.all_eq
  | or h => simpa only [truth, someTrue_eq] using h.any_eq
  | andItem before after _ ih => simp [truth, allTrue_eq, ih]
  | orItem before after _ ih => simp [truth, someTrue_eq, ih]
  | not _ ih => rw [truth, truth, ih]

/-! ## Evaluation from left to right -/

section
variable (docs : Documents)

/-- The truth value that an evaluation from left to right comes to, which leaves out the items after
one that decides. -/
inductive Decides : Condition → Bool → Prop
  | all {items : List Condition} : (∀ c ∈ items, Decides c true) → Decides (.and items) true
  | fails {before after : List Condition} {c : Condition} : (∀ d ∈ before, Decides d true) →
      Decides c false → Decides (.and (before ++ c :: after)) false
  | none {items : List Condition} : (∀ c ∈ items, Decides c false) → Decides (.or items) false
  | holds {before after : List Condition} {c : Condition} : (∀ d ∈ before, Decides d false) →
      Decides c true → Decides (.or (before ++ c :: after)) true
  | not {inner : Condition} {b : Bool} : Decides inner b → Decides (.not inner) !b
  | test {t : DataTest} {b : Bool} :
      t.outcome docs = .ok b → Decides (.test t.subject t.comparison t.operand) b

/-- The evaluation comes by a test: all items before it are decided the way that lets it go on. -/
inductive Reaches : Condition → DataTest → Prop
  | and {before after : List Condition} {c : Condition} {t : DataTest} :
      (∀ d ∈ before, Decides docs d true) → Reaches c t → Reaches (.and (before ++ c :: after)) t
  | or {before after : List Condition} {c : Condition} {t : DataTest} :
      (∀ d ∈ before, Decides docs d false) → Reaches c t → Reaches (.or (before ++ c :: after)) t
  | not {inner : Condition} {t : DataTest} : Reaches inner t → Reaches (.not inner) t
  | test (t : DataTest) : Reaches (.test t.subject t.comparison t.operand) t

end

/-- Goes through the items up to the first that has the value `stop`. The lists of `And` and of `Or`
are both gone through like this (`evalAll_eq`, `evalAny_eq`). -/
def evalUntil (docs : Documents) (stop : Bool) : List Condition → Except EvalError Bool
  | [] => .ok !stop
  | c :: rest => do
    if (← eval docs c) = stop then return stop else evalUntil docs stop rest

section
variable {docs : Documents} {stop : Bool} {c : Condition} {items rest : List Condition}

theorem evalAll_eq : evalAll docs items = evalUntil docs false items := by
  induction items with
  | nil => rfl
  | cons c rest ih =>
    rw [evalAll, evalUntil, ← ih]
    cases eval docs c with
    | error e => rfl
    | ok b => cases b <;> rfl

theorem evalAny_eq : evalAny docs items = evalUntil docs true items := by
  induction items with
  | nil => rfl
  | cons c rest ih => rw [evalAny, evalUntil, ← ih]

theorem evalUntil_of_ok (h : eval docs c = .ok !stop) :
    evalUntil docs stop (c :: rest) = evalUntil docs stop rest := by
  rw [evalUntil, h]
  exact if_neg (by simp)

theorem evalUntil_of_ne (h : eval docs c ≠ .ok !stop) :
    evalUntil docs stop (c :: rest) = eval docs c := by
  rw [evalUntil]
  cases hc : eval docs c with
  | error e => rfl
  | ok b =>
    have hb : b = stop := by
      by_contra hne
      exact h (by rw [hc, Bool.eq_not.mpr hne])
    exact (if_pos hb).trans (congrArg Except.ok hb.symm)

theorem evalUntil_eq_ok_not_iff :
    evalUntil docs stop items = .ok (!stop) ↔ ∀ c ∈ items, eval docs c = .ok !stop := by
  induction items with
  | nil => simp [evalUntil]
  | cons c rest ih =>
    by_cases hc : eval docs c = .ok !stop
    · rw [evalUntil_of_ok hc, ih]
      simp [hc]
    · rw [evalUntil_of_ne hc]
      simp [hc]

/-- Any other result comes from the first item that does not let the evaluation go on. -/
theorem evalUntil_eq_iff {r : Except EvalError Bool} (hr : r ≠ .ok !stop) :
    evalUntil docs stop items = r ↔ ∃ before c after, items = before ++ c :: after ∧
      (∀ d ∈ before, eval docs d = .ok !stop) ∧ eval docs c = r := by
  induction items with
  | nil => simp [evalUntil, hr.symm]
  | cons first rest ih =>
    by_cases hfirst : eval docs first = .ok !stop
    · rw [evalUntil_of_ok hfirst, ih]
      constructor
      · rintro ⟨before, c, after, rfl, hbefore, hc⟩
        exact ⟨first :: before, c, after, rfl, by simpa [hfirst] using hbefore, hc⟩
      · rintro ⟨before, c, after, heq, hbefore, hc⟩
        cases before with
        | nil =>
          obtain ⟨rfl, rfl⟩ := List.cons.inj heq
          exact absurd (hc.symm.trans hfirst) hr
        | cons d before =>
          obtain ⟨rfl, rfl⟩ := List.cons.inj heq
          exact ⟨before, c, after, rfl, fun d hd => hbefore d (List.mem_cons_of_mem _ hd), hc⟩
    · rw [evalUntil_of_ne hfirst]
      constructor
      · intro hr
        exact ⟨[], first, rest, rfl, by simp, hr⟩
      · rintro ⟨before, c, after, heq, hbefore, hc⟩
        cases before with
        | nil =>
          obtain ⟨rfl, rfl⟩ := List.cons.inj heq
          exact hc
        | cons d before =>
          obtain ⟨rfl, rfl⟩ := List.cons.inj heq
          exact absurd (hbefore first (List.mem_cons_self ..)) hfirst

/-! ## Values and errors -/

theorem eval_and_eq : eval docs (.and items) = evalUntil docs false items := by
  rw [eval, evalAll_eq]

theorem eval_or_eq : eval docs (.or items) = evalUntil docs true items := by
  rw [eval, evalAny_eq]

theorem eval_not_eq (inner : Condition) :
    eval docs (.not inner) = (fun b => !b) <$> eval docs inner := by
  rw [eval]
  cases eval docs inner <;> rfl

theorem eval_of_decides {b : Bool} (h : Decides docs c b) : eval docs c = .ok b := by
  induction h with
  | all _ ih => rw [eval_and_eq]; exact evalUntil_eq_ok_not_iff.mpr ih
  | fails _ _ ihbefore ih =>
    rw [eval_and_eq, evalUntil_eq_iff (by simp)]
    exact ⟨_, _, _, rfl, ihbefore, ih⟩
  | none _ ih => rw [eval_or_eq]; exact evalUntil_eq_ok_not_iff.mpr ih
  | holds _ _ ihbefore ih =>
    rw [eval_or_eq, evalUntil_eq_iff (by simp)]
    exact ⟨_, _, _, rfl, ihbefore, ih⟩
  | not _ ih =>
    rw [eval_not_eq, ih]
    rfl
  | test h => exact h

theorem decides_of_eval {b : Bool} (h : eval docs c = .ok b) : Decides docs c b := by
  induction c using induction generalizing b with
  | and items ih =>
    rw [eval_and_eq] at h
    cases b with
    | true => exact .all fun c hc => ih c hc (evalUntil_eq_ok_not_iff.mp h c hc)
    | false =>
      obtain ⟨before, c, after, rfl, hbefore, hc⟩ := (evalUntil_eq_iff (by simp)).mp h
      exact .fails (fun d hd => ih d (by simp [hd]) (hbefore d hd)) (ih c (by simp) hc)
  | or items ih =>
    rw [eval_or_eq] at h
    cases b with
    | false => exact .none fun c hc => ih c hc (evalUntil_eq_ok_not_iff.mp h c hc)
    | true =>
      obtain ⟨before, c, after, rfl, hbefore, hc⟩ := (evalUntil_eq_iff (by simp)).mp h
      exact .holds (fun d hd => ih d (by simp [hd]) (hbefore d hd)) (ih c (by simp) hc)
  | not inner ih =>
    rw [eval_not_eq, map_eq_ok_iff] at h
    obtain ⟨b, hb, rfl⟩ := h
    exact .not (ih hb)
  | test subject comparison operand => exact .test (t := ⟨subject, comparison, operand⟩) h

theorem eval_eq_ok_iff {b : Bool} : eval docs c = .ok b ↔ Decides docs c b :=
  ⟨decides_of_eval, eval_of_decides⟩

theorem evalUntil_eq_error_iff {e : EvalError} (hitems : ∀ c ∈ items,
      (eval docs c = .error e ↔ ∃ t, Reaches docs c t ∧ t.outcome docs = .error e)) :
    evalUntil docs stop items = .error e ↔ ∃ before c after t, items = before ++ c :: after ∧
      (∀ d ∈ before, Decides docs d !stop) ∧ Reaches docs c t ∧ t.outcome docs = .error e := by
  rw [evalUntil_eq_iff (by simp)]
  constructor
  · rintro ⟨before, c, after, rfl, hbefore, hc⟩
    obtain ⟨t, ht, he⟩ := (hitems c (by simp)).mp hc
    exact ⟨before, c, after, t, rfl, fun d hd => decides_of_eval (hbefore d hd), ht, he⟩
  · rintro ⟨before, c, after, t, rfl, hbefore, ht, he⟩
    exact ⟨before, c, after, rfl, fun d hd => eval_of_decides (hbefore d hd),
      (hitems c (by simp)).mpr ⟨t, ht, he⟩⟩

theorem eval_not_eq_error_iff {e : EvalError} :
    eval docs (.not c) = .error e ↔ eval docs c = .error e := by
  rw [eval_not_eq]
  cases eval docs c <;> simp [Functor.map, Except.map]

theorem eval_eq_error_iff {e : EvalError} :
    eval docs c = .error e ↔ ∃ t, Reaches docs c t ∧ t.outcome docs = .error e := by
  induction c using induction with
  | and items ih =>
    rw [eval_and_eq, evalUntil_eq_error_iff ih]
    constructor
    · rintro ⟨before, c, after, t, rfl, hbefore, ht, he⟩
      exact ⟨t, .and hbefore ht, he⟩
    · rintro ⟨t, ht, he⟩
      cases ht with
      | and hbefore ht => exact ⟨_, _, _, t, rfl, hbefore, ht, he⟩
  | or items ih =>
    rw [eval_or_eq, evalUntil_eq_error_iff ih]
    constructor
    · rintro ⟨before, c, after, t, rfl, hbefore, ht, he⟩
      exact ⟨t, .or hbefore ht, he⟩
    · rintro ⟨t, ht, he⟩
      cases ht with
      | or hbefore ht => exact ⟨_, _, _, t, rfl, hbefore, ht, he⟩
  | not inner ih =>
    rw [eval_not_eq_error_iff, ih]
    constructor
    · rintro ⟨t, ht, he⟩
      exact ⟨t, .not ht, he⟩
    · rintro ⟨t, ht, he⟩
      cases ht with
      | not ht => exact ⟨t, ht, he⟩
  | test subject comparison operand =>
    constructor
    · intro he
      exact ⟨⟨subject, comparison, operand⟩, .test ⟨subject, comparison, operand⟩, he⟩
    · rintro ⟨t, ht, he⟩
      cases ht
      exact he

/-! ## Laws -/

theorem evalAll_of_values (h : ∀ c ∈ items, eval docs c = .ok (truth docs c)) :
    evalAll docs items = .ok (allTrue docs items) := by
  induction items with
  | nil => rfl
  | cons c rest ih =>
    rw [evalAll, h c (by simp), allTrue, ih fun d hd => h d (by simp [hd])]
    cases truth docs c <;> rfl

theorem evalAny_of_values (h : ∀ c ∈ items, eval docs c = .ok (truth docs c)) :
    evalAny docs items = .ok (someTrue docs items) := by
  induction items with
  | nil => rfl
  | cons c rest ih =>
    rw [evalAny, h c (by simp), someTrue, ih fun d hd => h d (by simp [hd])]
    cases truth docs c <;> rfl

/-- Without a failing test a condition has its classical truth value. -/
theorem eval_of_tests (h : ∀ t ∈ tests c, ∃ b, t.outcome docs = .ok b) :
    eval docs c = .ok (truth docs c) := by
  induction c using induction with
  | and items ih =>
    rw [eval, truth]
    refine evalAll_of_values fun c hc => ih c hc fun t ht => h t ?_
    rw [tests, testsOf_eq]
    exact List.mem_flatMap.mpr ⟨c, hc, ht⟩
  | or items ih =>
    rw [eval, truth]
    refine evalAny_of_values fun c hc => ih c hc fun t ht => h t ?_
    rw [tests, testsOf_eq]
    exact List.mem_flatMap.mpr ⟨c, hc, ht⟩
  | not inner ih =>
    rw [eval_not_eq, truth, ih h]
    rfl
  | test subject comparison operand =>
    obtain ⟨b, hb⟩ := h ⟨subject, comparison, operand⟩ (List.mem_singleton_self _)
    rw [DataTest.outcome] at hb
    rw [eval, truth, hb]
    rfl

theorem evalUntil_map_not : evalUntil docs (!stop) (items.map .not) =
    (fun b => !b) <$> evalUntil docs stop items := by
  induction items with
  | nil => rfl
  | cons c rest ih =>
    rw [List.map_cons, evalUntil, evalUntil, ih, eval_not_eq]
    cases eval docs c with
    | error e => rfl
    | ok b => cases b <;> cases stop <;> rfl

end

/-- A condition without failing tests has its classical truth value, whatever the order of its
items; it fails with the error of the test that an evaluation from left to right comes by; and a
negation may be moved inwards, errors and all. -/
theorem eval_logic (docs : Documents) (c : Condition) :
    ((∀ t ∈ tests c, ∃ b, t.outcome docs = .ok b) →
      ∀ d, Reordered c d → eval docs d = .ok (truth docs c)) ∧
    (∀ b, eval docs c = .ok b ↔ Decides docs c b) ∧
    (∀ e, eval docs c = .error e ↔ ∃ t, Reaches docs c t ∧ t.outcome docs = .error e) ∧
    (∀ items, eval docs (.not (.and items)) = eval docs (.or (items.map .not)) ∧
      eval docs (.not (.or items)) = eval docs (.and (items.map .not))) ∧
    eval docs (.not (.not c)) = eval docs c := by
  refine ⟨fun htests d hd => ?_, fun b => eval_eq_ok_iff, fun e => eval_eq_error_iff,
    fun items => ⟨?_, ?_⟩, ?_⟩
  · rw [hd.truth_eq docs]
    exact eval_of_tests fun t ht => htests t (hd.tests_perm.mem_iff.mpr ht)
  · rw [eval_not_eq, eval_and_eq, eval_or_eq]
    exact evalUntil_map_not.symm
  · rw [eval_not_eq, eval_and_eq, eval_or_eq]
    exact evalUntil_map_not.symm
  · rw [eval_not_eq, eval_not_eq]
    cases eval docs c <;> simp [Functor.map, Except.map]

def isLetter : Condition := .test "$.kind" .stringEquals (.literal (.str "letter"))

def isInsured : Condition := .test "$.insured" .isPresent (.literal (.bool true))

def parcel : Documents :=
  ⟨.obj [("insured", .bool true), ("kind", .str "parcel")], .null⟩

theorem eval_logic_parcel :
    let c := Condition.or [isLetter, .and [.not isInsured, .not isLetter]]
    let d := Condition.or [.and [.not isLetter, .not isInsured], isLetter]
    (∀ t ∈ tests c, ∃ b, t.outcome parcel = .ok b) ∧ Reordered c d ∧
      eval parcel d = .ok false := by
  intro c d
  have hletter : evalTest "$.kind" .stringEquals (.literal (.str "letter")) parcel =
      .ok false := by cbv
  have hinsured : evalTest "$.insured" .isPresent (.literal (.bool true)) parcel =
      .ok true := by cbv
  have htests : ∀ t ∈ tests c, ∃ b, t.outcome parcel = .ok b := by
    simp [c, isLetter, isInsured, tests, testsOf, DataTest.outcome, hletter, hinsured]
  have hinner : Reordered (.and [.not isInsured, .not isLetter])
      (.and [.not isLetter, .not isInsured]) := .and (.swap ..)
  have hreordered : Reordered c d := (Reordered.orItem [isLetter] [] hinner).trans (.or (.swap ..))
  have heval := (eval_logic parcel c).1 htests d hreordered
  have htruth : truth parcel c = false := by
    simp [c, isLetter, isInsured, truth, allTrue, someTrue, hletter, hinsured, Except.toOption]
  rw [htruth] at heval
  exact ⟨htests, hreordered, heval⟩

/-- A test that fails is hidden behind an item that decides, and shows in front of it. -/
example :
    let missing := Condition.test "$.weight" .isNumeric (.literal (.bool true))
    eval parcel (.or [isInsured, missing]) = .ok true ∧
      eval parcel (.or [missing, isInsured]) = .error (.pathNotFound "$.weight") := by
  cbv

end Condition
end StateCheck
