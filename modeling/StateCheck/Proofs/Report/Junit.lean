import Mathlib.Data.List.Forall2
import StateCheck.Proofs.Report.Markup
import StateCheck.Proofs.Results
import StateCheck.Proofs.Suite.Stopping
import StateCheck.Report.Junit
/-!
What a reader of markup finds in a report of results.

An escaped text has no markup in it, and the reader gets back the text that was escaped. Every line
of the report then does what it says: it opens an element, closes one or does both
(`Report.Junit.ReadsLines`). So a report is read as one element with an element for each case, and
the counts of a summary are those of the elements (`Report.Junit.report_tells`).
-/
namespace StateCheck.Report.Junit
set_option autoImplicit false

open Markup Markup.Reader

/-! ## Escaped texts -/

theorem escapeChar_cases (c : Char) :
    (∃ entity ∈ entities, entity.2 = c ∧ escapeChar c = entity.1.toList) ∨
    ((∀ entity ∈ entities, c ≠ entity.2) ∧ escapeChar c = [c]) := by
  have hentities : ∀ entity ∈ entities, escapeChar entity.2 = entity.1.toList := by decide
  by_cases h : ∃ entity ∈ entities, entity.2 = c
  · obtain ⟨entity, hentity, rfl⟩ := h
    exact .inl ⟨entity, hentity, rfl, hentities entity hentity⟩
  · have hnone : ∀ entity ∈ entities, c ≠ entity.2 := fun entity hentity heq =>
      h ⟨entity, hentity, heq.symm⟩
    refine .inr ⟨hnone, ?_⟩
    rw [escapeChar.eq_def]
    split <;> simp_all [entities]

theorem toList_escape (s : String) : (escape s).toList = s.toList.flatMap escapeChar :=
  String.toList_ofList

/-- All occurrences of a character replaced by its entity. -/
def replaceAll (cs : List Char) (entity : String × Char) : List Char :=
  cs.flatMap fun c => if c = entity.2 then entity.1.toList else [c]

theorem foldl_replaceAll (replaced : List (String × Char)) (cs : List Char) :
    replaced.foldl replaceAll cs = cs.flatMap fun c => replaced.foldl replaceAll [c] := by
  induction replaced generalizing cs with
  | nil => simp
  | cons entity rest ih =>
    rw [List.foldl_cons, ih, replaceAll, List.flatMap_assoc]
    congr 1
    funext c
    rw [List.foldl_cons, ih (replaceAll _ _), replaceAll, List.flatMap_singleton]

theorem foldl_replaceAll_self {replaced : List (String × Char)} {c : Char}
    (h : ∀ entity ∈ replaced, c ≠ entity.2) : replaced.foldl replaceAll [c] = [c] := by
  induction replaced with
  | nil => rfl
  | cons entity rest ih =>
    obtain ⟨hne, hrest⟩ := List.forall_mem_cons.mp h
    rw [List.foldl_cons, replaceAll, List.flatMap_singleton, if_neg hne, ih hrest]

/-- One pass does what five do, of which the first replaces the ampersands. -/
theorem escape_eq_replacements (s : String) :
    (escape s).toList = entities.foldl replaceAll s.toList := by
  have hentities : ∀ entity ∈ entities,
      entities.foldl replaceAll [entity.2] = entity.1.toList := by decide
  rw [toList_escape, foldl_replaceAll]
  congr 1
  funext c
  obtain ⟨entity, hentity, rfl, heq⟩ | ⟨hc, heq⟩ := escapeChar_cases c
  · rw [heq, hentities entity hentity]
  · rw [heq, foldl_replaceAll_self hc]

theorem not_mark_of_mem_escape {c : Char} {s : String} (h : c ∈ (escape s).toList) :
    c ∉ ['<', '>', '"', '\''] := by
  have hentities : ∀ entity ∈ entities, entity.1.toList.all (· ∉ ['<', '>', '"', '\'']) := by
    decide
  rw [toList_escape] at h
  obtain ⟨d, -, hc⟩ := List.mem_flatMap.mp h
  obtain ⟨entity, hentity, -, heq⟩ | ⟨hd, heq⟩ := escapeChar_cases d
  · have hsafe := List.all_eq_true.mp (hentities entity hentity) c (heq ▸ hc)
    exact of_decide_eq_true hsafe
  · obtain rfl := List.mem_singleton.mp (heq ▸ hc)
    simp only [entities, List.forall_mem_cons] at hd
    simp [hd]

theorem decode?_escape (s : String) : decode? (escape s).toList = some s.toList := by
  rw [toList_escape]
  induction s.toList with
  | nil => rfl
  | cons c cs ih =>
    rw [List.flatMap_cons]
    obtain ⟨entity, hentity, rfl, heq⟩ | ⟨hc, heq⟩ := escapeChar_cases c
    · rw [heq, decode?_entity hentity, ih]
      rfl
    · rw [heq, List.singleton_append, decode?_cons (hc _ List.mem_cons_self), ih]
      rfl

theorem entity_eq_append {entity : String × Char} (h : entity ∈ entities) {before rest : List Char}
    (heq : entity.1.toList = before ++ '&' :: rest) : before = [] := by
  have htail : ∀ entity ∈ entities, '&' ∉ entity.1.toList.tail := by decide
  have htail := htail entity h
  cases before with
  | nil => rfl
  | cons c before =>
    rw [heq] at htail
    simp at htail

theorem entity_of_ampersand {s : String} {before rest : List Char}
    (h : (escape s).toList = before ++ '&' :: rest) :
    ∃ entity ∈ entities, entity.1.toList <+: '&' :: rest := by
  rw [toList_escape] at h
  generalize s.toList = cs at h
  induction cs generalizing before with
  | nil => simp at h
  | cons c cs ih =>
    rw [List.flatMap_cons, List.append_eq_append_iff] at h
    obtain ⟨before', -, h⟩ | ⟨tail, hc, h⟩ := h
    · exact ih h
    · cases tail with
      | nil =>
        have h : cs.flatMap escapeChar = [] ++ '&' :: rest := h.symm
        exact ih h
      | cons d tail =>
        obtain ⟨rfl, rfl⟩ := List.cons.inj h
        obtain ⟨entity, hentity, -, heq⟩ | ⟨hne, heq⟩ := escapeChar_cases c
        · rw [heq] at hc
          obtain rfl := entity_eq_append hentity hc
          refine ⟨entity, hentity, ?_⟩
          rw [hc]
          exact List.prefix_append _ _
        · -- A character that is no entity would be the ampersand.
          rw [heq] at hc
          have hmem : '&' ∈ [c] := hc ▸ by simp
          exact (hne _ List.mem_cons_self (List.mem_singleton.mp hmem).symm).elim

/-! ## Tags -/

variable {opened opened' opened'' : List Element} {r : Reader} {tag : Element}

theorem toList_withAttr (name value : String) :
    (withAttr name value).toList =
      ' ' :: name.toList ++ '=' :: '"' :: (escape value).toList ++ ['"'] := by
  simp [withAttr, toString]

theorem reads_withAttr (h : Behind r opened tag) {name : String} (hname : IsName name)
    (hnew : tag.hasAttribute name = false) (value : String) :
    Reads r (withAttr name value).toList ⟨opened, .valued (tag.addAttribute name value)⟩ := by
  have hsafe : ∀ c ∈ (escape value).toList, c ≠ '"' ∧ c ≠ '<' := by
    intro c hc
    have := not_mark_of_mem_escape hc
    simp only [List.mem_cons, not_or] at this
    exact ⟨this.2.2.1, this.1⟩
  have hread := h.attribute hname hnew (decode?_escape value) hsafe
  rw [String.ofList_toList] at hread
  rw [toList_withAttr]
  exact hread

def attributesText (attributes : List (String × String)) : List Char :=
  attributes.flatMap fun a => (withAttr a.1 a.2).toList

/-- Names that attributes of one tag may have. -/
def AreNames (names : List String) : Prop := names.Nodup ∧ ∀ name ∈ names, IsName name

instance (names : List String) : Decidable (AreNames names) :=
  inferInstanceAs (Decidable (_ ∧ _))

theorem reads_attributes (attributes : List (String × String)) (h : Behind r opened tag)
    (hnames : AreNames ((tag.attributes ++ attributes).map (·.1))) :
    ∃ r', Reads r (attributesText attributes) r' ∧
      Behind r' opened { tag with attributes := tag.attributes ++ attributes } := by
  induction attributes generalizing r tag with
  | nil =>
    rw [List.append_nil]
    cases tag
    exact ⟨r, .refl r, h⟩
  | cons a rest ih =>
    obtain ⟨name, value⟩ := a
    obtain ⟨hnodup, hall⟩ := hnames
    have hnew : tag.hasAttribute name = false := by
      rw [List.map_append, List.nodup_append] at hnodup
      rw [Element.hasAttribute, List.any_eq_false]
      intro own hown heq
      refine hnodup.2.2 own.1 (List.mem_map_of_mem hown) name List.mem_cons_self ?_
      simpa using heq
    have hname : IsName name := hall name (by simp)
    have hread := reads_withAttr h hname hnew value
    have happend : (tag.addAttribute name value).attributes ++ rest =
        tag.attributes ++ (name, value) :: rest := List.append_assoc _ _ _
    have hnames : AreNames (((tag.addAttribute name value).attributes ++ rest).map (·.1)) := by
      rw [happend]
      exact ⟨hnodup, hall⟩
    obtain ⟨r', hrest, hbehind⟩ := ih behind_valued hnames
    rw [happend] at hbehind
    exact ⟨r', hread.trans hrest, hbehind⟩

section Tags

variable {read text : List Char} {name : String} (attributes : List (String × String))

theorem reads_tag (htext : decode? read = some text) (hname : IsName name)
    (hnames : AreNames (attributes.map (·.1))) (e : Element) :
    ∃ r, Reads ⟨e :: opened, .text read⟩ ('<' :: name.toList ++ attributesText attributes) r ∧
      Behind r (e.addText text :: opened) ⟨name, attributes, "", []⟩ := by
  obtain ⟨r, hread, hbehind⟩ :=
    reads_attributes attributes (behind_tagName hname.1) hnames
  exact ⟨r, (reads_tagName htext hname.chars e).trans hread, hbehind⟩

theorem reads_startTag (htext : decode? read = some text) (hname : IsName name)
    (hnames : AreNames (attributes.map (·.1))) (e : Element) :
    Reads ⟨e :: opened, .text read⟩ ('<' :: name.toList ++ attributesText attributes ++ ['>'])
      ⟨⟨name, attributes, "", []⟩ :: e.addText text :: opened, .text []⟩ := by
  obtain ⟨r, hread, hbehind⟩ := reads_tag attributes htext hname hnames e
  exact hread.trans hbehind.opens

theorem reads_emptyTag (htext : decode? read = some text) (hname : IsName name)
    (hnames : AreNames (attributes.map (·.1))) (e : Element) :
    Reads ⟨e :: opened, .text read⟩ ('<' :: name.toList ++ attributesText attributes ++ ['/', '>'])
      ⟨(e.addText text).addChild ⟨name, attributes, "", []⟩ :: opened, .text []⟩ := by
  obtain ⟨r, hread, hbehind⟩ := reads_tag attributes htext hname hnames e
  exact hread.trans hbehind.ends

theorem reads_textElement (htext : decode? read = some text) (hname : IsName name)
    (hnames : AreNames (attributes.map (·.1))) (e : Element) (body : String) :
    Reads ⟨e :: opened, .text read⟩ ('<' :: name.toList ++ attributesText attributes ++ ['>'] ++
        (escape body).toList ++ ('<' :: '/' :: name.toList ++ ['>']))
      ⟨(e.addText text).addChild ⟨name, attributes, body, []⟩ :: opened, .text []⟩ := by
  let start : Element := ⟨name, attributes, "", []⟩
  have hbody : Reads ⟨start :: e.addText text :: opened, .text []⟩ (escape body).toList
      ⟨start :: e.addText text :: opened, .text ([] ++ (escape body).toList)⟩ :=
    reads_text (fun h => not_mark_of_mem_escape h List.mem_cons_self) []
  rw [List.nil_append] at hbody
  have hend : Reads ⟨start :: e.addText text :: opened, .text (escape body).toList⟩
      ('<' :: '/' :: name.toList ++ ['>'])
      ⟨(e.addText text).addChild (start.addText body.toList) :: opened, .text []⟩ :=
    reads_endTag (decode?_escape body) hname rfl (e.addText text)
  have hfull : start.addText body.toList = ⟨name, attributes, body, []⟩ := by
    rw [Element.addText, String.ofList_toList, String.empty_append]
  rw [← hfull]
  exact ((reads_startTag attributes htext hname hnames e).trans hbody).trans hend

end Tags

/-! ## Lines -/

/-- Lines lead from behind one break to behind another. -/
def ReadsLines (opened : List Element) (lines : List String) (opened' : List Element) : Prop :=
  Reads ⟨opened, .text ['\n']⟩ (unlines lines).toList ⟨opened', .text ['\n']⟩

theorem toList_unlines_append (lines lines' : List String) :
    (unlines (lines ++ lines')).toList = (unlines lines).toList ++ (unlines lines').toList := by
  simp [unlines]

theorem ReadsLines.nil (opened : List Element) : ReadsLines opened [] opened := .refl _

theorem ReadsLines.trans {lines lines' : List String} (h : ReadsLines opened lines opened')
    (h' : ReadsLines opened' lines' opened'') : ReadsLines opened (lines ++ lines') opened'' := by
  rw [ReadsLines, toList_unlines_append]
  exact Reads.trans h h'

/-- What stands in front of the markup of a line: two blanks for each element around it. -/
def indent (depth : Nat) : List Char := List.replicate (2 * depth) ' '

theorem decode?_break_indent (depth : Nat) :
    decode? ('\n' :: indent depth) = some ('\n' :: indent depth) :=
  decode?_of_not_mem (by simp [indent])

theorem ReadsLines.single {line : String} {markup : List Char} (depth : Nat)
    (hline : line.toList = indent depth ++ markup)
    (h : Reads ⟨opened, .text ('\n' :: indent depth)⟩ markup ⟨opened', .text []⟩) :
    ReadsLines opened [line] opened' := by
  have hindent : '<' ∉ indent depth := by simp [indent]
  have hbreak : Reads ⟨opened', .text []⟩ ['\n'] ⟨opened', .text ['\n']⟩ := .single rfl
  have htext : (unlines [line]).toList = indent depth ++ markup ++ ['\n'] := by
    rw [← hline]
    simp [unlines]
  rw [ReadsLines, htext]
  exact ((reads_text hindent ['\n']).trans h).trans hbreak

/-! ## Cases -/

/-- The elements that tell how a case ended. -/
def outcome (r : TestResult) : List Element :=
  match r.status with
  | .passed => []
  | .failed =>
    [⟨"failure", [("message", headline r)], "\n".intercalate (failureLines r), []⟩]
  | .skipped => [⟨"skipped", [("message", skipReason r)], "", []⟩]

def caseAttributes (suiteName : String) (r : TestResult) : List (String × String) :=
  [("name", r.name), ("classname", suiteName), ("time", seconds r.duration)]

/-- The element of a case when it has been read up to its end tag. -/
def openCase (suiteName : String) (r : TestResult) : Element :=
  Element.addLines ⟨"testcase", caseAttributes suiteName r, "", []⟩ ('\n' :: indent 2) (outcome r)

def caseElement (suiteName : String) (r : TestResult) : Element :=
  (openCase suiteName r).addText ('\n' :: indent 1)

theorem caseElement_fields (suiteName : String) (r : TestResult) :
    (caseElement suiteName r).name = "testcase" ∧
    (caseElement suiteName r).attributes = caseAttributes suiteName r ∧
    (caseElement suiteName r).children = outcome r :=
  Element.addLines_fields _ _ _

theorem reads_statusLines (r : TestResult) (e : Element) :
    ReadsLines (e :: opened) (statusLines r)
      (e.addLines ('\n' :: indent 2) (outcome r) :: opened) := by
  rw [statusLines, outcome]
  cases r.status with
  | passed => exact .nil _
  | failed =>
    refine .single 2 ?_ (reads_textElement [("message", headline r)] (decode?_break_indent 2)
      (by decide) (show AreNames ["message"] by decide) e ("\n".intercalate (failureLines r)))
    simp [attributesText, indent]
  | skipped =>
    refine .single 2 ?_ (reads_emptyTag [("message", skipReason r)] (decode?_break_indent 2)
      (by decide) (show AreNames ["message"] by decide) e)
    simp [attributesText, indent]

theorem reads_caseLines (suiteName : String) (r : TestResult) (e : Element) :
    ReadsLines (e :: opened) (caseLines suiteName r)
      ((e.addText ('\n' :: indent 1)).addChild (caseElement suiteName r) :: opened) := by
  have hstart : ReadsLines (e :: opened) ["  <testcase" ++ withAttr "name" r.name ++
      withAttr "classname" suiteName ++ withAttr "time" (seconds r.duration) ++ ">"]
      (⟨"testcase", caseAttributes suiteName r, "", []⟩ ::
        e.addText ('\n' :: indent 1) :: opened) := by
    refine .single 1 ?_ (reads_startTag (caseAttributes suiteName r) (decode?_break_indent 1)
      (by decide) (show AreNames ["name", "classname", "time"] by decide) e)
    simp [attributesText, caseAttributes, indent]
  have hstatus : ReadsLines
      (⟨"testcase", caseAttributes suiteName r, "", []⟩ :: e.addText ('\n' :: indent 1) :: opened)
      (statusLines r) (openCase suiteName r :: e.addText ('\n' :: indent 1) :: opened) :=
    reads_statusLines r _
  have hend : ReadsLines (openCase suiteName r :: e.addText ('\n' :: indent 1) :: opened)
      ["  </testcase>"]
      ((e.addText ('\n' :: indent 1)).addChild (caseElement suiteName r) :: opened) := by
    have hname : (openCase suiteName r).name = "testcase" := (caseElement_fields suiteName r).1
    refine .single 1 ?_ (reads_endTag (decode?_break_indent 1) (by decide) hname
      (e.addText ('\n' :: indent 1)))
    decide
  exact (hstart.trans hstatus).trans hend

theorem reads_results (suiteName : String) (results : List TestResult) (e : Element) :
    ReadsLines (e :: opened) (results.flatMap (caseLines suiteName))
      (e.addLines ('\n' :: indent 1) (results.map (caseElement suiteName)) :: opened) := by
  induction results generalizing e with
  | nil => exact .nil _
  | cons r rest ih => exact (reads_caseLines suiteName r e).trans (ih _)

/-! ## The report -/

def suiteAttributes (r : SuiteResult) : List (String × String) :=
  [("name", r.suiteName), ("tests", toString r.summary.total),
    ("failures", toString r.summary.failed), ("skipped", toString r.summary.skipped),
    ("time", seconds r.summary.duration)]

/-- The element of a suite when it has been read up to its end tag. -/
def openSuite (r : SuiteResult) : Element :=
  Element.addLines ⟨"testsuite", suiteAttributes r, "", []⟩ ('\n' :: indent 1)
    (r.results.map (caseElement r.suiteName))

def suiteElement (r : SuiteResult) : Element := (openSuite r).addText ['\n']

theorem suiteElement_fields (r : SuiteResult) :
    (suiteElement r).name = "testsuite" ∧ (suiteElement r).attributes = suiteAttributes r ∧
    (suiteElement r).children = r.results.map (caseElement r.suiteName) :=
  Element.addLines_fields _ _ _

theorem reads_declaration_line :
    Reads ⟨[.start ""], .text []⟩ (unlines ["<?xml version=\"1.0\" encoding=\"UTF-8\"?>"]).toList
      ⟨[.start ""], .text ['\n']⟩ := by
  have hmarks : '?' ∉ "xml version=\"1.0\" encoding=\"UTF-8\"".toList := by decide
  have hread : Reads ⟨[.start ""], .text []⟩
      "<?xml version=\"1.0\" encoding=\"UTF-8\"?>".toList ⟨[.start ""], .text []⟩ :=
    reads_declaration (decode?_of_not_mem List.not_mem_nil) hmarks (.start "")
  exact hread.trans (.single rfl)

theorem read?_suite (r : SuiteResult) : Element.read? (suite r) = some (suiteElement r) := by
  let document : Element := (Element.start "").addText ['\n']
  have hstart : ReadsLines [.start ""] [suiteLine r]
      [⟨"testsuite", suiteAttributes r, "", []⟩, document] := by
    refine .single 0 ?_ (reads_startTag (suiteAttributes r) (decode?_break_indent 0) (by decide)
      (show AreNames ["name", "tests", "failures", "skipped", "time"] by decide) (.start ""))
    simp [suiteLine, attributesText, suiteAttributes, indent]
  have hresults : ReadsLines [⟨"testsuite", suiteAttributes r, "", []⟩, document]
      (r.results.flatMap (caseLines r.suiteName)) [openSuite r, document] :=
    reads_results r.suiteName r.results _
  have hend : ReadsLines [openSuite r, document] ["</testsuite>"]
      [document.addChild (suiteElement r)] := by
    have hname : (openSuite r).name = "testsuite" := (suiteElement_fields r).1
    refine .single 0 ?_ (reads_endTag (decode?_break_indent 0) (by decide) hname document)
    decide
  -- The breaks around the only element are all that the document has besides it.
  have hread : Reads ⟨[.start ""], .text []⟩ (suite r).toList
      ⟨[document.addChild (suiteElement r)], .text ['\n']⟩ := by
    have hall := reads_declaration_line.trans ((hstart.trans hresults).trans hend)
    rw [← toList_unlines_append] at hall
    simpa [suite] using hall
  have hblank : (document.text.toList ++ ['\n']).all isSpace := by decide
  rw [Element.read?, hread]
  exact if_pos hblank

theorem suiteElement_named {name : String} (h : name ≠ "testsuite") (r : SuiteResult) :
    (suiteElement r).named name = r.results.flatMap fun t =>
      (if "testcase" = name then [caseElement r.suiteName t] else []) ++
        (outcome t).flatMap (Element.named name) := by
  obtain ⟨hname, -, hchildren⟩ := suiteElement_fields r
  rw [Element.named_eq, hname, if_neg h.symm, hchildren, List.flatMap_map, List.nil_append]
  congr 1
  funext t
  obtain ⟨hname, -, hchildren⟩ := caseElement_fields r.suiteName t
  rw [Element.named_eq, hname, hchildren]

theorem suiteElement_cases (r : SuiteResult) :
    (suiteElement r).named "testcase" = r.results.map (caseElement r.suiteName) := by
  have hnone : ∀ t, (outcome t).flatMap (Element.named "testcase") = [] := by
    intro t
    rw [outcome]
    cases t.status <;> simp [Element.named, Element.allNamed]
  rw [suiteElement_named (by decide), List.map_eq_flatMap]
  simp [hnone]

theorem suiteElement_outcomes {name : String} (hsuite : name ≠ "testsuite")
    (hcase : name ≠ "testcase") {status : TestStatus}
    (h : ∀ t, ((outcome t).flatMap (Element.named name)).length =
      if t.status == status then 1 else 0) (r : SuiteResult) :
    ((suiteElement r).named name).length = SuiteSummary.count status r.results := by
  rw [suiteElement_named hsuite]
  induction r.results with
  | nil => rfl
  | cons t rest ih =>
    rw [List.flatMap_cons, List.length_append, ih, if_neg hcase.symm, List.nil_append, h,
      SuiteSummary.count, SuiteSummary.count, List.countP_cons, Nat.add_comm]

theorem suiteElement_failures (r : SuiteResult) :
    ((suiteElement r).named "failure").length = SuiteSummary.count .failed r.results := by
  refine suiteElement_outcomes (by decide) (by decide) (fun t => ?_) r
  rw [outcome]
  cases t.status <;> simp [Element.named, Element.allNamed]

theorem suiteElement_skipped (r : SuiteResult) :
    ((suiteElement r).named "skipped").length = SuiteSummary.count .skipped r.results := by
  refine suiteElement_outcomes (by decide) (by decide) (fun t => ?_) r
  rw [outcome]
  cases t.status <;> simp [Element.named, Element.allNamed]

/-- An element that tells the result of a case. -/
structure TellsCase (suiteName : String) (r : TestResult) (e : Element) : Prop where
  attributes : e.attributes =
    [("name", r.name), ("classname", suiteName), ("time", seconds r.duration)]
  children : e.children = outcome r

/-- A document that tells the results of a suite, with the right counts of its elements. -/
structure Tells (r : SuiteResult) (document : Element) : Prop where
  root : document.name = "testsuite"
  name : document.attributes.lookup "name" = some r.suiteName
  cases : List.Forall₂ (TellsCase r.suiteName) r.results (document.named "testcase")
  children : document.children = document.named "testcase"
  tests : document.attributes.lookup "tests" =
    some (toString (document.named "testcase").length)
  failures : document.attributes.lookup "failures" =
    some (toString (document.named "failure").length)
  skipped : document.attributes.lookup "skipped" =
    some (toString (document.named "skipped").length)

theorem suiteElement_tells {r : SuiteResult} {duration : Nat}
    (h : r.summary = .tally r.results duration) : Tells r (suiteElement r) := by
  obtain ⟨hname, hattributes, hchildren⟩ := suiteElement_fields r
  constructor
  case root => exact hname
  case name =>
    rw [hattributes]
    rfl
  case cases =>
    rw [suiteElement_cases, List.forall₂_map_right_iff]
    refine List.forall₂_same.mpr fun t _ => ?_
    obtain ⟨-, hattributes, hchildren⟩ := caseElement_fields r.suiteName t
    exact ⟨hattributes, hchildren⟩
  case children => rw [hchildren, suiteElement_cases]
  case tests =>
    rw [hattributes, suiteElement_cases, List.length_map, suiteAttributes, h]
    rfl
  case failures =>
    rw [hattributes, suiteElement_failures, suiteAttributes, h]
    rfl
  case skipped =>
    rw [hattributes, suiteElement_skipped, suiteAttributes, h]
    rfl

theorem summary_of_result {run : SuiteRun} {p : SuiteProgress} {total : Nat} {r : SuiteResult}
    (h : p.result run total = .ok r) : r.summary = .tally r.results total := by
  obtain ⟨runs, -, rfl⟩ := map_eq_ok_iff.mp h
  rfl

/-- Escaped texts have no markup and can be decoded, and the report on the results of a run is a
document that tells them. -/
theorem report_tells :
    (∀ s : String, (escape s).toList = entities.foldl replaceAll s.toList ∧
      (∀ c ∈ (escape s).toList, c ∉ ['<', '>', '"', '\'']) ∧
      (∀ before rest, (escape s).toList = before ++ '&' :: rest →
        ∃ entity ∈ entities, entity.1.toList <+: '&' :: rest) ∧
      decode? (escape s).toList = some s.toList) ∧
    ∀ (run : SuiteRun) (p : SuiteProgress) (total : Nat) (r : SuiteResult),
      p.result run total = .ok r →
        ∃ document, Element.read? (suite r) = some document ∧ Tells r document := by
  refine ⟨fun s => ⟨escape_eq_replacements s, fun _ => not_mark_of_mem_escape,
    fun _ _ => entity_of_ampersand, decode?_escape s⟩, ?_⟩
  intro run p total r h
  exact ⟨suiteElement r, read?_suite r, suiteElement_tells (summary_of_result h)⟩

open SuiteRun in
theorem report_tells_four : ∃ p r document,
    SuiteProgress.follow? failingThird oneByOne (failingThird.start false) = some p ∧
      p.result failingThird 7 = .ok r ∧ Element.read? (suite r) = some document ∧
        (document.named "testcase").length = 4 := by
  have hrun : (SuiteProgress.follow? failingThird oneByOne (failingThird.start false)).map (fun p =>
      (p.result failingThird 7).toOption.map fun r => r.results.length) = some (some 4) := by
    decide +kernel
  obtain ⟨p, hp, hresult⟩ := Option.map_eq_some_iff.mp hrun
  obtain ⟨r, hr, hlength⟩ := Option.map_eq_some_iff.mp hresult
  have hr : p.result failingThird 7 = .ok r := by
    cases h : p.result failingThird 7 with
    | ok other =>
      rw [h] at hr
      cases hr
      rfl
    | error e =>
      rw [h] at hr
      cases hr
  obtain ⟨document, hread, htells⟩ := report_tells.2 failingThird p 7 r hr
  exact ⟨p, r, document, hp, hr, hread, htells.cases.length_eq.symm.trans hlength⟩

end StateCheck.Report.Junit
