import StateCheck.Mock.Engine
import StateCheck.Proofs.Document.Values
/-!
Conditional rules as they are written.

`MockRule.Answers` says what a written rule answers an input, from the document alone: the error or
response of the first condition that matches, or else the default, if one is written. The engine
answers just that (`MockEngine.resolve_conditional`). A default that is written as null is taken for
none at all, so that the call fails (`MockEngine.resolve_null_default`).
-/
namespace StateCheck
set_option autoImplicit false

/-! ## Errors -/

namespace MockError

def fieldNames : List String := ["type", "cause"]

theorem of_fit {written : Json} {e : MockError} (h : fit (Node.ofJson written) = some e) :
    (written.field? fieldNames "type").bind Json.asString? = some e.errorType ∧
      e.cause = (written.field? fieldNames "cause").bind Json.asString? := by
  obtain ⟨r, hr, h⟩ := Option.bind_eq_some_iff.mp h
  obtain ⟨errorType, htype, h⟩ := Option.bind_eq_some_iff.mp h
  obtain ⟨cause, hcause, h⟩ := Option.bind_eq_some_iff.mp h
  cases h
  have hlookup : ∀ name ∈ fieldNames,
      r.lookup name = (written.field? fieldNames name).map Node.ofJson :=
    fun name hname => Node.lookup_of_record? hr hname
  rw [Record.required_text (hlookup "type" (by simp [fieldNames]))] at htype
  exact ⟨htype, Record.optional_text (hlookup "cause" (by simp [fieldNames])) hcause⟩

end MockError

/-! ## Conditions -/

namespace MockCondition

def fieldNames : List String := ["when", "response", "error"]

def meets (written input : Json) : Bool :=
  (written.field? fieldNames "when").any fun pattern => patternMatches pattern input

/-- What a written condition answers. -/
inductive Answers (written : Json) : MockOutcome → Prop
  | error {e : Json} {errorType : String} (hgiven : written.field? fieldNames "error" = some e)
      (hnull : e.isNull = false)
      (htype : (e.field? MockError.fieldNames "type").bind Json.asString? = some errorType) :
      Answers written
        (.failure ⟨errorType, (e.field? MockError.fieldNames "cause").bind Json.asString?⟩)
  /-- Without an error, its response, or null without one. -/
  | response (hgiven : ∀ e, written.field? fieldNames "error" = some e → e.isNull = true) :
      Answers written (.value (Json.ofOption (written.field? fieldNames "response")))

theorem Answers.unique {written : Json} {o o' : MockOutcome} (h : Answers written o)
    (h' : Answers written o') : o = o' := by
  cases h with
  | error hgiven hnull htype =>
    cases h' with
    | error hgiven' hnull' htype' =>
      cases hgiven.symm.trans hgiven'
      cases htype.symm.trans htype'
      rfl
    | response hnone => simp [hnone _ hgiven] at hnull
  | response hnone =>
    cases h' with
    | error hgiven hnull htype => simp [hnone _ hgiven] at hnull
    | response => rfl

theorem of_fit {written : Json} (hsorted : written.Sorted) {c : MockCondition}
    (h : fit (Node.ofJson written) = some c) :
    written.field? fieldNames "when" = some c.pattern ∧
      Answers written (MockRule.conditionOutcome c) := by
  obtain ⟨r, hr, h⟩ := Option.bind_eq_some_iff.mp h
  obtain ⟨pattern, hpattern, h⟩ := Option.bind_eq_some_iff.mp h
  obtain ⟨response, hresponse, h⟩ := Option.bind_eq_some_iff.mp h
  obtain ⟨error, herror, h⟩ := Option.bind_eq_some_iff.mp h
  cases h
  have hlookup : ∀ name ∈ fieldNames,
      r.lookup name = (written.field? fieldNames name).map Node.ofJson :=
    fun name hname => Node.lookup_of_record? hr hname
  constructor
  · rw [Record.required, hlookup "when" (by simp [fieldNames]), Option.bind_map] at hpattern
    obtain ⟨v, hv, hvalue⟩ := Option.bind_eq_some_iff.mp hpattern
    rw [hv, ← hvalue]
    exact (Fit.value_ofJson (hsorted.field? hv)).symm
  rw [Record.optional_eq_mapM (hlookup "error" (by simp [fieldNames]))] at herror
  cases hgiven : (written.field? fieldNames "error").filter fun v => !v.isNull with
  | some e =>
    rw [hgiven, Option.mapM_some] at herror
    obtain ⟨read, hread, rfl⟩ := Option.map_eq_some_iff.mp herror
    obtain ⟨hwritten, hnull⟩ := Option.filter_eq_some_iff.mp hgiven
    obtain ⟨htype, hcause⟩ := MockError.of_fit hread
    have hanswer := Answers.error hwritten (by simpa using hnull) htype
    rw [← hcause] at hanswer
    exact hanswer
  | none =>
    rw [hgiven] at herror
    cases herror
    have hread := Record.optional_value (fun _ => hsorted.field?)
      (hlookup "response" (by simp [fieldNames])) hresponse
    have hanswer : Answers written
        (.value (Json.ofOption (written.field? fieldNames "response"))) :=
      .response fun e he => by simpa [he] using hgiven
    -- A null that is written as the response is dropped, and answered for want of a response.
    have hsame : Json.ofOption response = Json.ofOption (written.field? fieldNames "response") := by
      rw [hread]
      cases written.field? fieldNames "response" with
      | none => rfl
      | some v => cases v <;> rfl
    rw [← hsame] at hanswer
    exact hanswer

end MockCondition

/-! ## Rules -/

namespace MockRule

/-- The kind of a written rule, given by its word or its number. -/
def kind? (written : Json) : Option MockBehavior.Kind :=
  (written.get? "type").bind fun v => MockBehavior.fitKind (Node.ofJson v)

/-- The first condition of a written rule that matches an input. -/
def firstMatch? (written input : Json) : Option Json :=
  ((written.get? "conditions").bind Json.asArray?).bind fun conditions =>
    conditions.find? fun c => MockCondition.meets c input

/-- What a conditional rule for `state` answers an input, as it is written. -/
inductive Answers (state : String) (written input : Json) : MockOutcome → Prop
  | condition {c : Json} {o : MockOutcome} (hfirst : firstMatch? written input = some c)
      (hanswer : MockCondition.Answers c o) : Answers state written input o
  | default {v : Json} (hfirst : firstMatch? written input = none)
      (hdefault : written.get? "default" = some v) (hnull : v.isNull = false) :
      Answers state written input (.value v)
  /-- Without a default a failure that names the state. -/
  | refused (hfirst : firstMatch? written input = none)
      (hdefault : ∀ v, written.get? "default" = some v → v.isNull = true) :
      Answers state written input (.failure ⟨"NoMatchingCondition",
        some s!"no condition matched the input of state '{state}'"⟩)

theorem Answers.unique {state : String} {written input : Json} {o o' : MockOutcome}
    (h : Answers state written input o) (h' : Answers state written input o') : o = o' := by
  cases h with
  | condition hfirst hanswer =>
    cases h' with
    | condition hfirst' hanswer' =>
      cases hfirst.symm.trans hfirst'
      exact hanswer.unique hanswer'
    | default hfirst' | refused hfirst' => cases hfirst.symm.trans hfirst'
  | default hfirst hdefault hnull =>
    cases h' with
    | condition hfirst' => cases hfirst.symm.trans hfirst'
    | default _ hdefault' =>
      cases hdefault.symm.trans hdefault'
      rfl
    | refused _ hnone => simp [hnone _ hdefault] at hnull
  | refused hfirst hnone =>
    cases h' with
    | condition hfirst' => cases hfirst.symm.trans hfirst'
    | default _ hdefault hnull => simp [hnone _ hdefault] at hnull
    | refused => rfl

theorem mapM_text?_entriesOf (fields : Fields) :
    (Node.entriesOf fields).mapM (fun entry => entry.1.text?.map (·, entry.2)) =
      some (fields.map fun entry => (entry.1, Node.ofJson entry.2)) := by
  induction fields with
  | nil => rfl
  | cons entry rest ih =>
    rw [Node.entriesOf, List.mapM_cons, ih]
    rfl

theorem mapM_settled?_ofJson (fields : Fields) :
    (fields.map fun entry => (entry.1, Node.ofJson entry.2)).mapM (fun (key, n) =>
      n.settled?.map (Node.scalar (.str key) none, ·)) = some (Node.entriesOf fields) := by
  induction fields with
  | nil => rfl
  | cons entry rest ih =>
    rw [List.map_cons, List.mapM_cons, ih]
    dsimp only
    rw [Node.settled?_ofJson]
    rfl

theorem behaviorFields?_entriesOf (fields : Fields) : behaviorFields? (Node.entriesOf fields) =
    some (Node.entriesOf (fields.filter fun entry => !ownFields.contains entry.1)) := by
  rw [behaviorFields?, mapM_text?_entriesOf, Option.bind_eq_bind, Option.bind_some,
    List.filter_map]
  exact mapM_settled?_ofJson _

theorem of_fit {written : Json} {rule : MockRule} (h : fit (Node.ofJson written) = some rule) :
    written.getString? "state" = some rule.state ∧ ∃ others : Fields,
      MockBehavior.fit (Node.ofJson (.obj others)) = some rule.behavior ∧
        ∀ name, name ∉ ownFields → Fields.get? name others = written.get? name := by
  cases written with
  | obj fields =>
    rw [Node.ofJson, fit] at h
    obtain ⟨r, hr, h⟩ := Option.bind_eq_some_iff.mp h
    obtain ⟨state, hstate, h⟩ := Option.bind_eq_some_iff.mp h
    obtain ⟨delay, -, h⟩ := Option.bind_eq_some_iff.mp h
    obtain ⟨others, hothers, h⟩ := Option.bind_eq_some_iff.mp h
    obtain ⟨behavior, hbehavior, h⟩ := Option.bind_eq_some_iff.mp h
    cases h
    rw [behaviorFields?_entriesOf] at hothers
    cases hothers
    refine ⟨?_, _, hbehavior, fun name hname => Fields.get?_filter fun _ => by simp [hname]⟩
    have hobj : (Json.obj fields).isObject = true := rfl
    have hlookup : r.lookup "state" = (Fields.get? "state" fields).map Node.ofJson :=
      Node.lookup_record? hobj hr (by simp [ownFields])
    rw [Record.required_text hlookup] at hstate
    exact hstate
  | _ => cases h

end MockRule

theorem MockBehavior.conditional_of_fit {fields : Fields} {behavior : MockBehavior}
    (hdefault : ∀ v, Fields.get? "default" fields = some v → v.Sorted)
    (hkind : (Fields.get? "type" fields).bind (fun v => fitKind (Node.ofJson v)) =
      some .conditional)
    (h : fit (Node.ofJson (.obj fields)) = some behavior) :
    ∃ entries conditions, Fields.get? "conditions" fields = some (.arr entries) ∧
      Fit.list MockCondition.fit (Node.ofJson (.arr entries)) = some conditions ∧
      behavior = .conditional conditions
        ((Fields.get? "default" fields).filter fun v => !v.isNull) := by
  have hobj : (Json.obj fields).isObject = true := rfl
  obtain ⟨tagged, htagged, h⟩ := Option.bind_eq_some_iff.mp h
  obtain ⟨kind, htype, h⟩ := Option.bind_eq_some_iff.mp h
  have htag : tagged.lookup "type" = (Fields.get? "type" fields).map Node.ofJson :=
    Node.lookup_record? hobj htagged (by simp)
  obtain rfl : kind = .conditional := by
    rw [Record.required, htag, Option.bind_map] at htype
    exact Option.some.inj (htype.symm.trans hkind)
  obtain ⟨r, hr, h⟩ := Option.bind_eq_some_iff.mp h
  obtain ⟨conditions, hconditions, h⟩ := Option.bind_eq_some_iff.mp h
  obtain ⟨default, hread, h⟩ := Option.bind_eq_some_iff.mp h
  cases h
  have hlookup : ∀ name ∈ ["conditions", "default"],
      r.lookup name = (Fields.get? name fields).map Node.ofJson :=
    fun name hname => Node.lookup_record? hobj hr hname
  rw [Record.required, hlookup "conditions" (by simp), Option.bind_map] at hconditions
  obtain ⟨v, hv, hlist⟩ := Option.bind_eq_some_iff.mp hconditions
  obtain ⟨entries, rfl⟩ := Fit.exists_arr_of_list hlist
  exact ⟨entries, conditions, hv, hlist,
    by rw [Record.optional_value hdefault (hlookup "default" (by simp)) hread]⟩

namespace MockRule

theorem answers_of_fit {written : Json} (hsorted : written.Sorted) {rule : MockRule}
    (h : fit (Node.ofJson written) = some rule) (hkind : kind? written = some .conditional)
    (exhaustion : Exhaustion) (state : String) (index : Nat) (input : Json) :
    Answers state written input (outcome exhaustion state rule.behavior index input) := by
  obtain ⟨-, others, hfit, hothers⟩ := of_fit h
  have hget : ∀ name ∈ ["type", "conditions", "default"],
      Fields.get? name others = written.get? name := by
    intro name hname
    apply hothers name
    simp only [List.mem_cons, List.not_mem_nil, or_false] at hname
    rcases hname with rfl | rfl | rfl <;> decide
  obtain ⟨entries, conditions, hentries, hlist, hbehavior⟩ :=
    MockBehavior.conditional_of_fit (fun v hv => hsorted.get? (hget "default" (by simp) ▸ hv))
      (by rw [hget "type" (by simp)]; exact hkind) hfit
  rw [hget "conditions" (by simp)] at hentries
  have hread : ∀ c ∈ entries, ∀ a, MockCondition.fit (Node.ofJson c) = some a →
      MockCondition.meets c input = patternMatches a.pattern input := by
    intro c hc a ha
    rw [MockCondition.meets, (MockCondition.of_fit ((hsorted.get? hentries).of_item hc) ha).1,
      Option.any_some]
  have hmatch : firstMatch? written input =
      entries.find? fun c => MockCondition.meets c input := by
    rw [firstMatch?, hentries]
    rfl
  have hfound := Fit.find?_list hlist hread
  rw [hbehavior, hget "default" (by simp)]
  simp only [outcome]
  cases hfirst : entries.find? fun c => MockCondition.meets c input with
  | some c =>
    rw [hfirst, Option.mapM_some] at hfound
    obtain ⟨a, ha, hsome⟩ := Option.map_eq_some_iff.mp hfound
    rw [← hsome]
    have hc : c.Sorted := (hsorted.get? hentries).of_item (List.mem_of_find?_eq_some hfirst)
    exact .condition (hmatch.trans hfirst) (MockCondition.of_fit hc ha).2
  | none =>
    have hnone := hmatch.trans hfirst
    rw [hfirst, Option.mapM_none] at hfound
    rw [← Option.some.inj hfound]
    cases hgiven : (written.get? "default").filter fun v => !v.isNull with
    | some v =>
      obtain ⟨hwritten, hnull⟩ := Option.filter_eq_some_iff.mp hgiven
      exact .default hnone hwritten (by simpa using hnull)
    | none => exact .refused hnone fun v hv => by simpa [hv] using hgiven

end MockRule

/-! ## Configurations -/

namespace MockConfig

def fieldNames : List String := ["version", "mocks"]

theorem ruleFor?_of_ofJson {doc : Json} {config : MockConfig} (h : ofJson doc = .ok config)
    {rules : List Json} (hrules : doc.field? fieldNames "mocks" = some (.arr rules))
    {state : String} {written : Json}
    (hfirst : rules.find? (fun r => r.getString? "state" == some state) = some written) :
    ∃ rule, config.ruleFor? state = some rule ∧
      MockRule.fit (Node.ofJson written) = some rule := by
  have hfit : fit (Node.ofJson doc) = some config := by
    rw [ofJson, ofNode] at h
    split at h
    · next read hread => rw [hread, Except.ok.inj h]
    · cases h
  obtain ⟨r, hr, hfit⟩ := Option.bind_eq_some_iff.mp hfit
  obtain ⟨version, -, hfit⟩ := Option.bind_eq_some_iff.mp hfit
  obtain ⟨mocks, hmocks, hfit⟩ := Option.bind_eq_some_iff.mp hfit
  cases hfit
  rw [Record.defaulted, Node.lookup_of_record? hr (by simp), ← fieldNames, hrules] at hmocks
  have hstate : ∀ r ∈ rules, ∀ rule, MockRule.fit (Node.ofJson r) = some rule →
      (r.getString? "state" == some state) = (rule.state == state) := by
    intro r _ rule hread
    rw [(MockRule.of_fit hread).1, Option.some_beq_some]
  have hfound := Fit.find?_list hmocks hstate
  rw [hfirst, Option.mapM_some] at hfound
  obtain ⟨rule, hread, hsome⟩ := Option.map_eq_some_iff.mp hfound
  exact ⟨rule, hsome.symm, hread⟩

end MockConfig

namespace MockEngine

/-- Whatever the engine was asked before, the first rule of a state, if it is conditional, answers
an input as it is written: with what the first condition says that matches, else with the default
that is written and not null, and with a failure only without one. -/
theorem resolve_conditional {doc : Json} (hdoc : doc.Sorted) {engine : MockEngine}
    (hread : MockConfig.ofJson doc = .ok engine.config) {rules : List Json}
    (hrules : doc.field? MockConfig.fieldNames "mocks" = some (.arr rules)) {state : String}
    {written : Json}
    (hfirst : rules.find? (fun r => r.getString? "state" == some state) = some written)
    (hkind : MockRule.kind? written = some .conditional) (input : Json) (o : MockOutcome) :
    MockRule.Answers state written input o ↔ o = (engine.resolve state input).1.outcome := by
  have hsorted : written.Sorted :=
    (hdoc.field? hrules).of_item (List.mem_of_find?_eq_some hfirst)
  obtain ⟨rule, hrule, hfit⟩ := MockConfig.ruleFor?_of_ofJson hread hrules hfirst
  have hresolve : (engine.resolve state input).1.outcome =
      MockRule.outcome engine.exhaustion state rule.behavior (engine.callCount state) input := by
    rw [resolve, hrule]
    rfl
  have hanswers : MockRule.Answers state written input (engine.resolve state input).1.outcome := by
    rw [hresolve]
    exact MockRule.answers_of_fit hsorted hfit hkind _ state _ input
  exact ⟨fun h => h.unique hanswers, fun h => h ▸ hanswers⟩

/-- A condition on an amount, with what else is written of it. -/
def amountCondition (more : Fields) (pattern : Json) : Json :=
  .obj (more ++ [("when", .obj [("amount", pattern)])])

def tooLarge : Json :=
  amountCondition [("error", .obj [("type", .str "TooLarge")]), ("response", .str "hidden")]
    (.obj [("$gt", .num (.int 100))])

def zeroAmount : Json := amountCondition [] (.num (.int 0))

/-- A false default is an answer. -/
def priceRule : Json :=
  .obj [("conditions", .arr [tooLarge, zeroAmount]), ("default", .bool false),
    ("state", .str "Price"), ("type", .str "conditional")]

/-- A second rule for the state is never asked. -/
def priceMocks : Json :=
  .obj [("mocks", .arr [priceRule,
    .obj [("response", .str "other"), ("state", .str "Price"), ("type", .str "fixed")]])]

theorem resolve_conditional_price : ∃ config, MockConfig.ofJson priceMocks = .ok config ∧
    let answer (amount : Json) :=
      (resolve { config } "Price" (.obj [("amount", amount)])).1.outcome
    answer (.num (.int 500)) = .failure ⟨"TooLarge", none⟩ ∧
      answer (.num (.int 0)) = .value .null ∧ answer (.str "a lot") = .value (.bool false) := by
  have hsorted : priceMocks.Sorted := by
    simp only [priceMocks, priceRule, tooLarge, zeroAmount, amountCondition, List.cons_append,
      List.nil_append, Json.Sorted, Json.SortedFields, Json.SortedItems]
    decide
  obtain ⟨config, hread⟩ : ∃ config, MockConfig.ofJson priceMocks = .ok config := ⟨_, rfl⟩
  have hanswers : ∀ amount o, MockRule.Answers "Price" priceRule (.obj [("amount", amount)]) o →
      o = (resolve { config } "Price" (.obj [("amount", amount)])).1.outcome :=
    fun amount o => (resolve_conditional hsorted hread rfl rfl rfl _ o).mp
  refine ⟨config, hread, (hanswers _ _ ?_).symm, (hanswers _ _ ?_).symm, (hanswers _ _ ?_).symm⟩
  · have hfailure : MockCondition.Answers tooLarge (.failure ⟨"TooLarge", none⟩) :=
      .error (e := .obj [("type", .str "TooLarge")]) rfl rfl rfl
    have hfirst : [tooLarge, zeroAmount].find? (fun c =>
        MockCondition.meets c (.obj [("amount", .num (.int 500))])) = some tooLarge :=
      List.find?_cons_of_pos (by decide +kernel)
    exact .condition hfirst hfailure
  · have hnull : MockCondition.Answers zeroAmount (.value .null) :=
      .response fun e h => by cases h
    have hsecond : [tooLarge, zeroAmount].find? (fun c =>
        MockCondition.meets c (.obj [("amount", .num (.int 0))])) = some zeroAmount := by
      rw [List.find?_cons_of_neg (by decide +kernel), List.find?_cons_of_pos (by decide +kernel)]
    exact .condition hsecond hnull
  · exact .default (by decide +kernel) rfl rfl

/-- A conditional rule without conditions, its default written as null. -/
def nullDefault : Json :=
  .obj [("conditions", .arr []), ("default", .null), ("state", .str "A"),
    ("type", .str "conditional")]

/-- A default of null is not answered but refused, as if it had not been written. -/
theorem resolve_null_default : MockRule.kind? nullDefault = some .conditional ∧
    nullDefault.get? "default" = some .null ∧
    ∃ config, MockConfig.ofJson (.obj [("mocks", .arr [nullDefault])]) = .ok config ∧
      ∀ input, (resolve { config } "A" input).1.outcome = .failure
        ⟨"NoMatchingCondition", some "no condition matched the input of state 'A'"⟩ :=
  ⟨rfl, rfl, _, rfl, fun _ => rfl⟩

end MockEngine
end StateCheck
