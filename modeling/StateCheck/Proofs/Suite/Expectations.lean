import StateCheck.Proofs.Document.Values
import StateCheck.Suite.Verdict
/-!
What becomes of a written expectation.

A value that a case document expects of the output, or of the input or output of a state, is the
value that the check compares with, unless it is null (`TestCase.expected_of_fit`,
`StateExpectation.expected_of_fit`). A null is taken for a field that was left out, so that nothing
is checked.
-/
namespace StateCheck
set_option autoImplicit false

/-! ## Reading -/

theorem TestCase.expected_of_fit {doc : Json} (hdoc : doc.Sorted) (hobj : doc.isObject = true)
    {case : TestCase} (h : TestCase.fit (Node.ofJson doc) = some case) :
    (case.expectedOutput = (doc.get? "expectedOutput").filter fun v => !v.isNull) ∧
      ∀ entries, doc.get? "stateExpectations" = some (.arr entries) → ∀ entry ∈ entries,
        ∃ e ∈ case.stateExpectations, StateExpectation.fit (Node.ofJson entry) = some e := by
  obtain ⟨r, hr, h⟩ := Option.bind_eq_some_iff.mp h
  obtain ⟨name, -, h⟩ := Option.bind_eq_some_iff.mp h
  obtain ⟨description, -, h⟩ := Option.bind_eq_some_iff.mp h
  obtain ⟨input, -, h⟩ := Option.bind_eq_some_iff.mp h
  obtain ⟨output, houtput, h⟩ := Option.bind_eq_some_iff.mp h
  obtain ⟨path, -, h⟩ := Option.bind_eq_some_iff.mp h
  obtain ⟨error, -, h⟩ := Option.bind_eq_some_iff.mp h
  obtain ⟨mocks, -, h⟩ := Option.bind_eq_some_iff.mp h
  obtain ⟨skip, -, h⟩ := Option.bind_eq_some_iff.mp h
  obtain ⟨only, -, h⟩ := Option.bind_eq_some_iff.mp h
  obtain ⟨timeout, -, h⟩ := Option.bind_eq_some_iff.mp h
  obtain ⟨states, hstates, h⟩ := Option.bind_eq_some_iff.mp h
  obtain ⟨maps, -, h⟩ := Option.bind_eq_some_iff.mp h
  obtain ⟨parallels, -, h⟩ := Option.bind_eq_some_iff.mp h
  cases h
  have hexpected : r.lookup "expectedOutput" = (doc.get? "expectedOutput").map Node.ofJson :=
    Node.lookup_record? hobj hr (by simp)
  have hentries : r.lookup "stateExpectations" =
      (doc.get? "stateExpectations").map Node.ofJson := Node.lookup_record? hobj hr (by simp)
  refine ⟨Record.optional_value (fun _ => hdoc.get?) hexpected houtput, fun entries hgiven => ?_⟩
  rw [Record.defaulted, hentries, hgiven] at hstates
  exact fun entry hentry => Fit.exists_of_mem_list hstates hentry

theorem StateExpectation.expected_of_fit {entry : Json} (hentry : entry.Sorted) {name : String}
    (hname : entry.get? "state" = some (.str name)) {e : StateExpectation}
    (h : StateExpectation.fit (Node.ofJson entry) = some e) :
    e.state = name ∧ (e.input = (entry.get? "input").filter fun v => !v.isNull) ∧
      e.output = (entry.get? "output").filter fun v => !v.isNull := by
  obtain ⟨r, hr, h⟩ := Option.bind_eq_some_iff.mp h
  obtain ⟨state, hstate, h⟩ := Option.bind_eq_some_iff.mp h
  obtain ⟨input, hinput, h⟩ := Option.bind_eq_some_iff.mp h
  obtain ⟨output, houtput, h⟩ := Option.bind_eq_some_iff.mp h
  cases h
  have hlookup : ∀ field ∈ ["state", "input", "output"],
      r.lookup field = (entry.get? field).map Node.ofJson :=
    fun field hfield => Node.lookup_record? (Json.isObject_of_get? hname) hr hfield
  refine ⟨?_, Record.optional_value (fun _ => hentry.get?) (hlookup _ (by simp)) hinput,
    Record.optional_value (fun _ => hentry.get?) (hlookup _ (by simp)) houtput⟩
  rw [Record.required, hlookup "state" (by simp), hname] at hstate
  exact (Option.some.inj hstate).symm

/-! ## Checking -/

namespace Verdict

theorem mem_checkValue {kind : AssertionKind} {message : String} {mode : MatchMode}
    {expected : Option Json} {actual : Json} {f : AssertionFailure} :
    f ∈ checkValue kind message mode expected actual ↔ ∃ e, expected = some e ∧
      valuesMatch mode e actual = false ∧ f = .compared kind message e actual := by
  cases expected with
  | none => simp [checkValue]
  | some e =>
    cases hmatch : valuesMatch mode e actual <;> simp [checkValue, hmatch]

theorem mem_checkValue_of_written {kind : AssertionKind} {message : String} {mode : MatchMode}
    {written expected : Option Json} {v actual : Json}
    (hexpected : expected = written.filter fun v => !v.isNull) (hv : written = some v)
    (hnull : v.isNull = false) (hne : valuesMatch mode v actual = false) :
    .compared kind message v actual ∈ checkValue kind message mode expected actual := by
  have hkept : expected = some v := by
    rw [hexpected, hv]
    simp [Option.filter, hnull]
  exact mem_checkValue.mpr ⟨v, hkept, hne, rfl⟩

theorem eq_of_mem_unless {c : Prop} [Decidable c] {f g : AssertionFailure}
    (h : f ∈ if c then [] else [g]) : f = g := by
  split at h
  · cases h
  · exact List.mem_singleton.mp h

theorem kind_of_mem_errorFailures {expected : ExpectedError} {actual : TraceError}
    {f : AssertionFailure} (h : f ∈ errorFailures expected actual) : f.kind = .error := by
  rw [errorFailures] at h
  split at h
  · rw [List.mem_singleton.mp h]
    rfl
  · split at h
    · cases h
    · rw [eq_of_mem_unless h]
      rfl

theorem kind_of_mem_checkError {expected : Option ExpectedError} {actual : Option TraceError}
    {f : AssertionFailure} (h : f ∈ checkError expected actual) : f.kind = .error := by
  cases expected with
  | none =>
    cases actual with
    | none => cases h
    | some a =>
      rw [List.mem_singleton.mp h]
      rfl
  | some e =>
    cases actual with
    | none =>
      rw [List.mem_singleton.mp h]
    | some a => exact kind_of_mem_errorFailures h

theorem kind_of_mem_checkPath {mode : MatchMode} {expected : Option (List String)}
    {actual : List String} {f : AssertionFailure} (h : f ∈ checkPath mode expected actual) :
    f.kind = .path := by
  cases expected with
  | none => cases h
  | some e =>
    rw [eq_of_mem_unless h]
    rfl

theorem kind_of_mem_checkState {mode : MatchMode} {trace : ExecutionTrace} {e : StateExpectation}
    {f : AssertionFailure} (h : f ∈ checkState mode trace e) : f.kind = .state := by
  rw [checkState] at h
  split at h
  · rw [List.mem_singleton.mp h]
  · rcases List.mem_append.mp h with h | h
    · obtain ⟨v, -, -, rfl⟩ := mem_checkValue.mp h
      rfl
    · obtain ⟨v, -, -, rfl⟩ := mem_checkValue.mp h
      rfl

theorem kind_of_mem_checkScopes {kind : AssertionKind} {noun : String} {mode : MatchMode}
    {e : ScopesExpectation} {actual : List (List String)} {f : AssertionFailure}
    (h : f ∈ checkScopes kind noun mode e actual) : f.kind = kind := by
  rw [checkScopes] at h
  rcases List.mem_append.mp h with hcount | hpaths
  · split at hcount
    · cases hcount
    · rw [eq_of_mem_unless hcount]
      rfl
  · split at hpaths
    · cases hpaths
    · rw [eq_of_mem_unless hpaths]
      rfl

theorem kind_of_mem_checkContainer {kind : AssertionKind} {noun : String} {mode : MatchMode}
    {first : Option (List (List String))} {e : ScopesExpectation} {f : AssertionFailure}
    (h : f ∈ checkContainer kind noun mode first e) : f.kind = kind := by
  cases first with
  | none =>
    obtain rfl := List.mem_singleton.mp h
    rfl
  | some actual => exact kind_of_mem_checkScopes h

end Verdict

open Verdict

theorem mem_checkCase_output {case : TestCase} {trace : ExecutionTrace}
    {matching : MatchingSettings} {f : AssertionFailure} :
    f ∈ checkCase case trace matching ∧ f.kind = .output ↔ ∃ e, case.expectedOutput = some e ∧
      valuesMatch matching.outputs e trace.output = false ∧
      f = .compared .output "output did not match" e trace.output := by
  rw [← mem_checkValue]
  constructor
  · rintro ⟨h, hkind⟩
    simp only [checkCase, List.mem_append, List.mem_flatMap] at h
    obtain ((((h | h) | h) | ⟨e, -, h⟩) | ⟨e, -, h⟩) | ⟨e, -, h⟩ := h
    · cases (kind_of_mem_checkError h).symm.trans hkind
    · exact h
    · cases (kind_of_mem_checkPath h).symm.trans hkind
    · cases (kind_of_mem_checkState h).symm.trans hkind
    · cases (kind_of_mem_checkContainer h).symm.trans hkind
    · cases (kind_of_mem_checkContainer h).symm.trans hkind
  · intro h
    obtain ⟨e, -, -, hf⟩ := mem_checkValue.mp h
    refine ⟨?_, by rw [hf]; rfl⟩
    simp only [checkCase, List.mem_append]
    exact .inl (.inl (.inl (.inl (.inr h))))

theorem mem_checkCase_of_checkState {case : TestCase} {trace : ExecutionTrace}
    {matching : MatchingSettings} {e : StateExpectation} (he : e ∈ case.stateExpectations)
    {f : AssertionFailure} (h : f ∈ checkState matching.outputs trace e) :
    f ∈ checkCase case trace matching := by
  have hmem : f ∈ case.stateExpectations.flatMap (checkState matching.outputs trace) :=
    List.mem_flatMap.mpr ⟨e, he, h⟩
  simp only [checkCase, List.mem_append]
  exact .inl (.inl (.inr hmem))

theorem mem_checkState {mode : MatchMode} {trace : ExecutionTrace} {e : StateExpectation}
    {visit : StateExecution} (hvisit : trace.firstVisit? e.state = some visit)
    {f : AssertionFailure} : f ∈ checkState mode trace e ↔
      f ∈ checkValue .state s!"input of state '{e.state}' did not match" mode e.input visit.input ∨
      f ∈ checkValue .state s!"output of state '{e.state}' did not match" mode e.output
        (Json.ofOption visit.output) := by
  rw [checkState, hvisit, List.mem_append]

/-- Every value other than null that a case document expects is compared with: of the output it is
the one value to match, and a mismatch with the input or output of a visited state is reported. -/
theorem written_expectations {doc : Json} (hdoc : doc.Sorted) {case : TestCase}
    (hcase : TestCase.fit (Node.ofJson doc) = some case) (trace : ExecutionTrace)
    (matching : MatchingSettings) :
    (∀ v, doc.get? "expectedOutput" = some v → ∀ f : AssertionFailure,
      (f ∈ checkCase case trace matching ∧ f.kind = .output ↔ v.isNull = false ∧
        valuesMatch matching.outputs v trace.output = false ∧
        f = .compared .output "output did not match" v trace.output)) ∧
    ∀ entries, doc.get? "stateExpectations" = some (.arr entries) → ∀ entry ∈ entries,
      ∀ name visit, entry.get? "state" = some (.str name) →
        trace.firstVisit? name = some visit →
      (∀ v, entry.get? "input" = some v → v.isNull = false →
        valuesMatch matching.outputs v visit.input = false →
        .compared .state s!"input of state '{name}' did not match" v visit.input ∈
          checkCase case trace matching) ∧
      ∀ v, entry.get? "output" = some v → v.isNull = false →
        valuesMatch matching.outputs v (Json.ofOption visit.output) = false →
        .compared .state s!"output of state '{name}' did not match" v
          (Json.ofOption visit.output) ∈ checkCase case trace matching := by
  refine ⟨fun v hv f => ?_, fun entries hentries entry hentry name visit hname hvisit => ?_⟩
  · have hexpected := (TestCase.expected_of_fit hdoc (Json.isObject_of_get? hv) hcase).1
    rw [mem_checkCase_output, hexpected, hv]
    cases hnull : v.isNull <;> simp [Option.filter, hnull]
  · obtain ⟨e, he, hfit⟩ :=
      (TestCase.expected_of_fit hdoc (Json.isObject_of_get? hentries) hcase).2 entries hentries
        entry hentry
    have hsorted : entry.Sorted := by
      have hitems := hdoc.get? hentries
      simp only [Json.Sorted] at hitems
      exact hitems.of_mem hentry
    obtain ⟨rfl, hinput, houtput⟩ := StateExpectation.expected_of_fit hsorted hname hfit
    constructor
    · intro v hv hnull hne
      apply mem_checkCase_of_checkState he
      exact (mem_checkState hvisit).mpr (.inl (mem_checkValue_of_written hinput hv hnull hne))
    · intro v hv hnull hne
      apply mem_checkCase_of_checkState he
      exact (mem_checkState hvisit).mpr (.inr (mem_checkValue_of_written houtput hv hnull hne))

/-- A case that expects a total of the output and a null of the state `A`. -/
def totalCase : Json :=
  .obj [("expectedOutput", .obj [("total", .num (.int 3))]), ("name", .str "total"),
    ("stateExpectations",
      .arr [.obj [("input", .num (.int 1)), ("output", .null), ("state", .str "A")]])]

/-- A run through the state `A` alone, with the same value before and after it. -/
def throughA (v : Json) : ExecutionTrace :=
  { executionPath := ["A"], stateExecutions := [⟨"A", "", v, some v⟩], mapExecutions := [],
    parallelExecutions := [], retries := [], output := v, success := true, error := none }

theorem written_expectations_total : ∃ case, TestCase.fit (Node.ofJson totalCase) = some case ∧
    .compared .output "output did not match" (.obj [("total", .num (.int 3))]) Json.empty ∈
      checkCase case (throughA Json.empty) {} ∧
    .compared .state "input of state 'A' did not match" (.num (.int 1)) Json.empty ∈
      checkCase case (throughA Json.empty) {} := by
  have hread : (TestCase.fit (Node.ofJson totalCase)).isSome = true := by decide
  obtain ⟨case, hcase⟩ := Option.isSome_iff_exists.mp hread
  have hsorted : totalCase.Sorted := by
    simp only [totalCase, Json.Sorted, Json.SortedFields, Json.SortedItems]
    decide
  obtain ⟨houtput, hstates⟩ := written_expectations hsorted hcase (throughA Json.empty) {}
  refine ⟨case, hcase, ?_, ?_⟩
  · exact ((houtput _ rfl _).mpr ⟨rfl, by cbv, rfl⟩).1
  · exact (hstates _ rfl _ (List.mem_singleton.mpr rfl) "A" _ rfl rfl).1 _ rfl rfl (by cbv)

/-- A null that is expected is not compared with anything: neither of the output nor of the input or
output of a state. -/
theorem null_expectations_unchecked : ∃ case, TestCase.fit (Node.ofJson (.obj
      [("expectedOutput", .null), ("name", .str "t"), ("stateExpectations",
        .arr [.obj [("input", .null), ("output", .null), ("state", .str "A")]])])) = some case ∧
    ∀ matching : MatchingSettings,
      valuesMatch matching.outputs .null (.obj [("a", .num (.int 1))]) = false ∧
        checkCase case (throughA (.obj [("a", .num (.int 1))])) matching = [] :=
  ⟨_, rfl, fun _ => ⟨rfl, rfl⟩⟩

end StateCheck
