import Mathlib.Data.List.Infix
import StateCheck.Proofs.Path.Text
import StateCheck.Report.Tap
/-!
What a reader finds in a report of results.

A reader goes by the first words of a line: the plan, one line for each result, and the totals. The
texts of mismatches stand behind a mark of their own and are never taken for one of these, whatever
is in them. Names and reasons stand as they are, so a break in one may start such a line and a name
may have the mark of skipped results in it. The report tells the results exactly when this happens
nowhere (`Report.Tap.tells_iff_legible`).
-/
namespace StateCheck.Report.Tap
set_option autoImplicit false

/-! ## Lines -/

def lines (text : String) : List (List Char) := text.toList.splitOn '\n'

/-- A line that begins with one of these words. -/
def startsWith (starts : List String) (line : List Char) : Bool :=
  starts.any (·.toList.isPrefixOf line)

/-- The lines of a text that begin with one of these words. -/
def linesWith (starts : List String) (text : String) : List (List Char) :=
  (lines text).filter (startsWith starts)

theorem lines_append_break (s : String) (rest : List Char) :
    (s.toList ++ '\n' :: rest).splitOn '\n' = lines s ++ rest.splitOn '\n' :=
  List.splitOn_append_cons_self _ _

theorem lines_unlines (texts : List String) :
    lines (unlines texts) = texts.flatMap lines ++ [[]] := by
  have hall : (unlines texts).toList = texts.flatMap fun s => s.toList ++ ['\n'] := by
    rw [unlines, String.toList_join, List.flatMap_map]
    simp
  rw [lines, hall]
  clear hall
  induction texts with
  | nil => simp
  | cons s rest ih =>
    rw [List.flatMap_cons, List.flatMap_cons, List.append_assoc, List.append_assoc, ← ih]
    exact lines_append_break s _

theorem lines_of_not_mem {s : String} (h : '\n' ∉ s.toList) : lines s = [s.toList] :=
  List.splitOn_eq_singleton h

theorem lines_append {before : String} (h : '\n' ∉ before.toList) (s : String) :
    lines (before ++ s) = (before.toList ++ (lines s).headD []) :: (lines s).tail := by
  rw [lines, String.toList_append]
  obtain ⟨first, rest, hsplit⟩ := List.exists_cons_of_ne_nil (List.splitOn_ne_nil '\n' s.toList)
  rw [lines, hsplit, List.headD_cons, List.tail_cons]
  generalize before.toList = cs at h ⊢
  induction cs with
  | nil => exact hsplit
  | cons c cs ih =>
    obtain ⟨hc, hcs⟩ := List.ne_and_not_mem_of_not_mem_cons h
    have hbreak : (c == '\n') = false := by simpa using hc.symm
    rw [List.cons_append, List.splitOn_cons_eq_if_modifyHead, hbreak, if_neg (by decide), ih hcs]
    rfl

/-! ## Lines of a result -/

/-- The words that a line of a result may begin with. -/
def resultStarts : List String := ["ok ", "not ok "]

/-- The words that the other lines of a report begin with that a reader takes something from. -/
def totalStarts : List String := ["1..", "# pass", "# fail"]

/-- What stands before the description of a result. -/
def heading (number : Nat) (r : TestResult) : String :=
  (if r.status = .failed then "not ok " else "ok ") ++ toString number ++ " - "

def skipMark : String := " # SKIP"

/-- What stands behind the number of a result. -/
def described (r : TestResult) : String :=
  r.name ++ if r.status = .skipped then skipMark ++ " " ++ skipReason r else ""

theorem resultLine_eq (number : Nat) (r : TestResult) :
    resultLine number r = heading number r ++ described r := by
  have hok : isOk r = !decide (r.status = .failed) := by
    cases h : r.status <;> simp [isOk, h]
  have hskipped : (r.status == .skipped) = decide (r.status = .skipped) := rfl
  rw [resultLine, heading, described, skipMark, hok, hskipped]
  cases r.status <;> simp [String.append_assoc, toString]

theorem not_mem_toString {c : Char} (h : c.isDigit = false) (n : Nat) :
    c ∉ (toString n).toList := by
  rw [Nat.toString_eq_repr, Nat.toList_repr]
  intro hmem
  rw [Natural.isDigit_of_mem hmem] at h
  cases h

theorem break_not_mem_heading (number : Nat) (r : TestResult) :
    '\n' ∉ (heading number r).toList := by
  have hnumber := not_mem_toString (c := '\n') (by decide) number
  rw [heading, String.toList_append, String.toList_append, List.mem_append, List.mem_append]
  rintro ((h | h) | h)
  · split at h <;> revert h <;> decide
  · exact hnumber h
  · revert h
    decide

theorem startsWith_heading (number : Nat) (r : TestResult) (rest : List Char) :
    startsWith resultStarts ((heading number r).toList ++ rest) = true ∧
    ∀ start ∈ totalStarts, startsWith [start] ((heading number r).toList ++ rest) = false := by
  rw [heading]
  split <;> simp [startsWith, resultStarts, totalStarts, List.isPrefixOf]

theorem linesWith_of_not_mem {s : String} (h : '\n' ∉ s.toList) (starts : List String) :
    linesWith starts s = if startsWith starts s.toList then [s.toList] else [] := by
  rw [linesWith, lines_of_not_mem h, List.filter_cons, List.filter_nil]

theorem break_not_mem_textLines {cs current : List Char} {line : String}
    (hcurrent : '\n' ∉ current) (h : line ∈ textLines current cs) : '\n' ∉ line.toList := by
  fun_induction textLines current cs with
  | case1 current hempty => cases h
  | case2 current hempty =>
    obtain rfl := List.mem_singleton.mp h
    simpa using hcurrent
  | case3 current rest line' ih =>
    rcases List.mem_cons.mp h with rfl | h
    · have hline : line' ⊆ current := by
        intro c hc
        simp only [line'] at hc
        split at hc
        · exact List.mem_cons_of_mem _ hc
        · exact hc
      rw [String.toList_ofList, List.mem_reverse]
      exact fun hmem => hcurrent (hline hmem)
    · exact ih List.not_mem_nil h
  | case4 current c rest hc ih =>
    refine ih ?_ h
    rw [List.mem_cons, not_or]
    exact ⟨Ne.symm hc, hcurrent⟩

theorem linesWith_comment {r : TestResult} {line : String} (h : line ∈ commentLines r) :
    linesWith resultStarts line = [] ∧ ∀ start ∈ totalStarts, linesWith [start] line = [] := by
  rw [commentLines] at h
  split at h
  · obtain ⟨text, htext, rfl⟩ := List.mem_map.mp h
    have hbreak : '\n' ∉ ("  # " ++ text).toList := by
      have := break_not_mem_textLines List.not_mem_nil htext
      simpa using this
    rw [linesWith_of_not_mem hbreak]
    simp only [linesWith_of_not_mem hbreak]
    simp [startsWith, resultStarts, totalStarts, List.isPrefixOf]
  · cases h

def headLine (number : Nat) (r : TestResult) : List Char :=
  (heading number r).toList ++ (lines (described r)).headD []

/-- The lines that breaks in the description of a result start with one of these words. -/
def strays (starts : List String) (r : TestResult) : List (List Char) :=
  (lines (described r)).tail.filter (startsWith starts)

theorem linesWith_result (number : Nat) (r : TestResult) :
    linesWith resultStarts (resultLine number r) = headLine number r :: strays resultStarts r ∧
    ∀ start ∈ totalStarts, linesWith [start] (resultLine number r) = strays [start] r := by
  obtain ⟨hresult, htotal⟩ := startsWith_heading number r ((lines (described r)).headD [])
  rw [← headLine] at hresult
  have htotal : ∀ start ∈ totalStarts, startsWith [start] (headLine number r) = false := htotal
  have hlines : ∀ starts, linesWith starts (resultLine number r) =
      (headLine number r :: (lines (described r)).tail).filter (startsWith starts) := by
    intro starts
    rw [linesWith, resultLine_eq, lines_append (break_not_mem_heading number r)]
    rfl
  constructor
  · rw [hlines, List.filter_cons_of_pos hresult]
    rfl
  · intro start hstart
    rw [hlines, List.filter_cons_of_neg (Bool.eq_false_iff.mp (htotal start hstart))]
    rfl

/-! ## The report -/

/-- The lines of results that a reader finds, in order. -/
def foundResults (number : Nat) : List TestResult → List (List Char)
  | [] => []
  | r :: rest => headLine number r :: strays resultStarts r ++ foundResults (number + 1) rest

theorem linesWith_results (number : Nat) (results : List TestResult) :
    (resultLines number results).flatMap (linesWith resultStarts) = foundResults number results ∧
    ∀ start ∈ totalStarts, (resultLines number results).flatMap (linesWith [start]) =
      results.flatMap (strays [start]) := by
  induction results generalizing number with
  | nil => exact ⟨rfl, fun _ _ => rfl⟩
  | cons r rest ih =>
    obtain ⟨hresult, htotal⟩ := linesWith_result number r
    obtain ⟨hrest, hrest'⟩ := ih (number + 1)
    have hcomments : (commentLines r).flatMap (linesWith resultStarts) = [] :=
      List.flatMap_eq_nil_iff.mpr fun line hline => (linesWith_comment hline).1
    rw [resultLines, List.flatMap_append, List.flatMap_cons, hresult, hcomments, hrest]
    refine ⟨by simp [foundResults], fun start hstart => ?_⟩
    have hcomments : (commentLines r).flatMap (linesWith [start]) = [] :=
      List.flatMap_eq_nil_iff.mpr fun line hline => (linesWith_comment hline).2 start hstart
    rw [List.flatMap_append, List.flatMap_cons, htotal start hstart, hcomments,
      hrest' start hstart, List.append_nil]
    rfl

theorem linesWith_unlines {starts : List String} (h : startsWith starts [] = false)
    (texts : List String) :
    linesWith starts (unlines texts) = texts.flatMap (linesWith starts) := by
  rw [linesWith, lines_unlines, List.filter_append, List.filter_flatMap,
    List.filter_cons_of_neg (Bool.eq_false_iff.mp h), List.filter_nil, List.append_nil]
  rfl

theorem linesWith_plain {texts : List String} (h : ∀ s ∈ texts, '\n' ∉ s.toList)
    (starts : List String) :
    texts.flatMap (linesWith starts) = (texts.map (·.toList)).filter (startsWith starts) := by
  induction texts with
  | nil => rfl
  | cons s rest ih =>
    obtain ⟨hs, hrest⟩ := List.forall_mem_cons.mp h
    rw [List.flatMap_cons, linesWith_of_not_mem hs, ih hrest, List.map_cons, List.filter_cons]
    split <;> rfl

theorem break_not_mem_total {words : String} (h : '\n' ∉ words.toList) (n : Nat) :
    '\n' ∉ (words ++ toString n).toList := by
  rw [String.toList_append, List.mem_append, not_or]
  exact ⟨h, not_mem_toString (by decide) n⟩

def opening (r : SuiteResult) : List String :=
  ["TAP version 14", "1.." ++ toString r.results.length]

def closing (r : SuiteResult) : List String :=
  ["# tests " ++ toString r.results.length, "# pass  " ++ toString (r.results.countP isOk),
    "# fail  " ++ toString (r.results.countP (!isOk ·))]

theorem linesWith_parts {starts : List String} (h : startsWith starts [] = false)
    (r : SuiteResult) :
    linesWith starts (suite r) = ((opening r).map (·.toList)).filter (startsWith starts) ++
      (resultLines 1 r.results).flatMap (linesWith starts) ++
        ((closing r).map (·.toList)).filter (startsWith starts) := by
  have hsuite : suite r = unlines (opening r ++ resultLines 1 r.results ++ closing r) := by
    simp [suite, opening, closing, toString]
  have hopening : ∀ s ∈ opening r, '\n' ∉ s.toList := by
    rw [opening, List.forall_mem_cons, List.forall_mem_singleton]
    exact ⟨by decide, break_not_mem_total (by decide) _⟩
  have hclosing : ∀ s ∈ closing r, '\n' ∉ s.toList := by
    rw [closing, List.forall_mem_cons, List.forall_mem_cons, List.forall_mem_singleton]
    exact ⟨break_not_mem_total (by decide) _, break_not_mem_total (by decide) _,
      break_not_mem_total (by decide) _⟩
  rw [hsuite, linesWith_unlines h, List.flatMap_append, List.flatMap_append,
    linesWith_plain hopening, linesWith_plain hclosing]

theorem linesWith_suite (r : SuiteResult) :
    linesWith resultStarts (suite r) = foundResults 1 r.results ∧
    linesWith ["1.."] (suite r) =
      ("1.." ++ toString r.results.length).toList :: r.results.flatMap (strays ["1.."]) ∧
    linesWith ["# pass"] (suite r) = r.results.flatMap (strays ["# pass"]) ++
      [("# pass  " ++ toString (r.results.countP isOk)).toList] ∧
    linesWith ["# fail"] (suite r) = r.results.flatMap (strays ["# fail"]) ++
      [("# fail  " ++ toString (r.results.countP (!isOk ·))).toList] := by
  obtain ⟨hresult, htotal⟩ := linesWith_results 1 r.results
  refine ⟨?_, ?_, ?_, ?_⟩
  · rw [linesWith_parts (by decide), hresult]
    simp [opening, closing, startsWith, resultStarts, List.isPrefixOf]
  · rw [linesWith_parts (by decide), htotal "1.." (by decide)]
    simp [opening, closing, startsWith, List.isPrefixOf]
  · rw [linesWith_parts (by decide), htotal "# pass" (by decide)]
    simp [opening, closing, startsWith, List.isPrefixOf]
  · rw [linesWith_parts (by decide), htotal "# fail" (by decide)]
    simp [opening, closing, startsWith, List.isPrefixOf]

/-! ## Reading the results back -/

/-- What a reader takes from the line of a result. -/
structure Shows (number : Nat) (line : List Char) (r : TestResult) : Prop where
  failed : ("not ok " ++ toString number ++ " - ").toList <+: line ↔ r.status = .failed
  passed : ("ok " ++ toString number ++ " - ").toList <+: line ↔ r.status ≠ .failed
  skipped : skipMark.toList <:+: line ↔ r.status = .skipped

/-- A report from which a reader takes these results, in order. -/
structure Tells (text : String) (results : List TestResult) : Prop where
  plan : linesWith ["1.."] text = [("1.." ++ toString results.length).toList]
  count : (linesWith resultStarts text).length = results.length
  each : ∀ k line r, (linesWith resultStarts text)[k]? = some line → results[k]? = some r →
    Shows (k + 1) line r
  totals : ∃ passed failed, linesWith ["# pass"] text = [("# pass  " ++ toString passed).toList] ∧
    linesWith ["# fail"] text = [("# fail  " ++ toString failed).toList] ∧
    passed + failed = results.length

/-- A result whose description a reader takes for nothing else. -/
structure Legible (r : TestResult) : Prop where
  breaks : ∀ line ∈ (lines (described r)).tail,
    startsWith (resultStarts ++ totalStarts) line = false
  mark : skipMark.toList <:+: ' ' :: (lines (described r)).headD [] ↔ r.status = .skipped

theorem startsWith_append (starts starts' : List String) (line : List Char) :
    startsWith (starts ++ starts') line = (startsWith starts line || startsWith starts' line) :=
  List.any_append

theorem strays_eq_nil_iff (starts : List String) (r : TestResult) :
    strays starts r = [] ↔ ∀ line ∈ (lines (described r)).tail, startsWith starts line = false := by
  rw [strays, List.filter_eq_nil_iff]
  exact forall₂_congr fun _ _ => Bool.not_eq_true _ ▸ Iff.rfl

theorem length_foundResults (number : Nat) (results : List TestResult) :
    (foundResults number results).length =
      results.length + (results.flatMap (strays resultStarts)).length := by
  induction results generalizing number with
  | nil => rfl
  | cons r rest ih =>
    rw [foundResults, List.length_append, List.length_cons, ih, List.flatMap_cons,
      List.length_append, List.length_cons]
    omega

theorem foundResults_getElem? {results : List TestResult}
    (h : results.flatMap (strays resultStarts) = []) (number k : Nat) :
    (foundResults number results)[k]? = results[k]?.map (headLine (number + k)) := by
  induction results generalizing number k with
  | nil => rfl
  | cons r rest ih =>
    obtain ⟨hr, hrest⟩ := List.append_eq_nil_iff.mp (List.flatMap_cons ▸ h)
    rw [foundResults, hr]
    cases k with
    | zero => rfl
    | succ k =>
      rw [List.cons_append, List.nil_append, List.getElem?_cons_succ, List.getElem?_cons_succ,
        ih hrest, Nat.add_right_comm, Nat.add_assoc]

/-- A mark cannot begin in a text without its sign. -/
theorem skipMark_infix_append {cs : List Char} (h : '#' ∉ cs) (rest : List Char) :
    skipMark.toList <:+: cs ++ ' ' :: rest ↔ skipMark.toList <:+: ' ' :: rest := by
  induction cs with
  | nil => rfl
  | cons c cs ih =>
    obtain ⟨-, hcs⟩ := List.ne_and_not_mem_of_not_mem_cons h
    rw [List.cons_append, List.infix_cons_iff, ih hcs, or_iff_right]
    intro hprefix
    -- The sign of the mark would be the first character behind `c`.
    obtain ⟨-, hsign⟩ := List.cons_prefix_cons.mp (show ' ' :: "# SKIP".toList <+: _ from hprefix)
    cases cs with
    | nil =>
      obtain ⟨hsign, -⟩ := List.cons_prefix_cons.mp (show '#' :: " SKIP".toList <+: _ from hsign)
      cases hsign
    | cons d cs =>
      obtain ⟨rfl, -⟩ := List.cons_prefix_cons.mp (show '#' :: " SKIP".toList <+: _ from hsign)
      exact hcs List.mem_cons_self

theorem headLine_shows_iff (number : Nat) (r : TestResult) :
    Shows number (headLine number r) r ↔
      (skipMark.toList <:+: ' ' :: (lines (described r)).headD [] ↔ r.status = .skipped) := by
  have hmark : skipMark.toList <:+: headLine number r ↔
      skipMark.toList <:+: ' ' :: (lines (described r)).headD [] := by
    have hsign : '#' ∉ (if r.status = .failed then "not ok " else "ok ").toList ++
        (toString number).toList ++ " -".toList := by
      have := not_mem_toString (c := '#') (by decide) number
      split <;> simpa using this
    rw [← skipMark_infix_append hsign, headLine, heading, String.toList_append,
      String.toList_append]
    simp
  constructor
  · intro h
    rw [← hmark]
    exact h.skipped
  · intro h
    refine ⟨?_, ?_, hmark.trans h⟩
    · rw [headLine, heading]
      split
      case isTrue hfailed => exact iff_of_true (List.prefix_append _ _) hfailed
      case isFalse hfailed => exact iff_of_false (by simp) hfailed
    · rw [headLine, heading]
      split
      case isTrue hfailed => exact iff_of_false (by simp) (not_not_intro hfailed)
      case isFalse hfailed => exact iff_of_true (List.prefix_append _ _) hfailed

theorem startsWith_of_subset {starts starts' : List String} (hsub : starts ⊆ starts')
    {line : List Char} (h : startsWith starts' line = false) : startsWith starts line = false := by
  rw [startsWith, List.any_eq_false] at h ⊢
  exact fun start hstart => h start (hsub hstart)

theorem Legible.flatMap_strays {results : List TestResult} (h : ∀ r ∈ results, Legible r)
    {starts : List String} (hsub : starts ⊆ resultStarts ++ totalStarts) :
    results.flatMap (strays starts) = [] :=
  List.flatMap_eq_nil_iff.mpr fun r hr => (strays_eq_nil_iff starts r).mpr fun line hline =>
    startsWith_of_subset hsub ((h r hr).breaks line hline)

theorem countP_isOk_add (results : List TestResult) :
    results.countP isOk + results.countP (!isOk ·) = results.length :=
  (List.length_eq_countP_add_countP isOk).symm ▸ by simp

theorem tells_of_legible {r : SuiteResult} (h : ∀ t ∈ r.results, Legible t) :
    Tells (suite r) r.results := by
  obtain ⟨hfound, hplan, hpass, hfail⟩ := linesWith_suite r
  have hnone : r.results.flatMap (strays resultStarts) = [] :=
    Legible.flatMap_strays h (List.subset_append_left _ _)
  constructor
  case plan => rw [hplan, Legible.flatMap_strays h (by decide)]
  case count => rw [hfound, length_foundResults, hnone, List.length_nil, Nat.add_zero]
  case each =>
    intro k line t hline ht
    rw [hfound, foundResults_getElem? hnone, ht, Nat.add_comm] at hline
    obtain rfl := Option.some.inj hline
    exact (headLine_shows_iff _ t).mpr (h t (List.mem_of_getElem? ht)).mark
  case totals =>
    refine ⟨_, _, ?_, ?_, countP_isOk_add r.results⟩
    · rw [hpass, Legible.flatMap_strays h (by decide), List.nil_append]
    · rw [hfail, Legible.flatMap_strays h (by decide), List.nil_append]

theorem eq_nil_of_append_singleton {α : Type} {found : List α} {line line' : α}
    (h : found ++ [line] = [line']) : found = [] := by
  have := congrArg List.length h
  simpa using this

theorem legible_of_tells {r : SuiteResult} (h : Tells (suite r) r.results) :
    ∀ t ∈ r.results, Legible t := by
  obtain ⟨hfound, hplan, hpass, hfail⟩ := linesWith_suite r
  have hnone : r.results.flatMap (strays resultStarts) = [] := by
    have hcount := h.count
    rw [hfound, length_foundResults] at hcount
    exact List.eq_nil_of_length_eq_zero (by omega)
  have hplan : r.results.flatMap (strays ["1.."]) = [] :=
    (List.cons.inj (hplan.symm.trans h.plan)).2
  -- Each total is the only line of its kind, so that no break in a description starts another.
  obtain ⟨passed, failed, htotal, htotal', -⟩ := h.totals
  have hpass := eq_nil_of_append_singleton (hpass.symm.trans htotal)
  have hfail := eq_nil_of_append_singleton (hfail.symm.trans htotal')
  intro t ht
  constructor
  case breaks =>
    intro line hline
    have hstarts : ∀ {starts}, r.results.flatMap (strays starts) = [] →
        startsWith starts line = false := fun hstrays =>
      (strays_eq_nil_iff _ t).mp (List.flatMap_eq_nil_iff.mp hstrays t ht) line hline
    rw [show totalStarts = ["1.."] ++ (["# pass"] ++ ["# fail"]) from rfl, startsWith_append,
      startsWith_append, startsWith_append, hstarts hnone, hstarts hplan, hstarts hpass,
      hstarts hfail]
    rfl
  case mark =>
    obtain ⟨k, hk⟩ := List.getElem?_of_mem ht
    refine (headLine_shows_iff (k + 1) t).mp (h.each k _ t ?_ hk)
    rw [hfound, foundResults_getElem? hnone, hk, Nat.add_comm]
    rfl

/-- A name and a reason in one line, the name without the sign that begins a mark. -/
theorem legible_of_plain {r : TestResult} (hname : '\n' ∉ r.name.toList)
    (hreason : '\n' ∉ (skipReason r).toList) (hsign : '#' ∉ r.name.toList) : Legible r := by
  have hbreak : '\n' ∉ (described r).toList := by
    rw [described]
    split <;> simp [skipMark, hname, hreason]
  have hlines : lines (described r) = [(described r).toList] := lines_of_not_mem hbreak
  constructor
  case breaks => simp [hlines]
  case mark =>
    rw [hlines, List.headD_cons, described]
    split
    case isTrue hskipped =>
      refine iff_of_true ⟨' ' :: r.name.toList, ' ' :: (skipReason r).toList, ?_⟩ hskipped
      simp
    case isFalse hskipped =>
      refine iff_of_false (fun hmark => ?_) hskipped
      have hmem : '#' ∈ ' ' :: (r.name ++ "").toList := hmark.subset (by decide)
      simp [hsign] at hmem

/-- A report tells the results of a suite exactly when each result is legible, as all are whose
names and reasons have no breaks and whose names do not have the sign of a mark. -/
theorem tells_iff_legible (r : SuiteResult) :
    (Tells (suite r) r.results ↔ ∀ t ∈ r.results, Legible t) ∧
    ∀ t : TestResult, '\n' ∉ t.name.toList → '\n' ∉ (skipReason t).toList → '#' ∉ t.name.toList →
      Legible t :=
  ⟨⟨legible_of_tells, tells_of_legible⟩, fun _ => legible_of_plain⟩

/-- A case of each status; the text of the mismatch looks like results. -/
def threeCases : SuiteResult :=
  let mismatch : AssertionFailure := { kind := .error, message := "ok 1 - a\nnot ok 2 - b" }
  let results := [⟨"a", .passed, 0, [], none, none⟩, ⟨"b", .failed, 0, [mismatch], none, none⟩,
    ⟨"c", .skipped, 0, [], some "later", none⟩]
  ⟨"cases", results, .tally results 0, none⟩

theorem tells_threeCases : Tells (suite threeCases) threeCases.results := by
  obtain ⟨htells, hlegible⟩ := tells_iff_legible threeCases
  have hplain : ∀ t ∈ threeCases.results, '\n' ∉ t.name.toList ∧
      '\n' ∉ (skipReason t).toList ∧ '#' ∉ t.name.toList := by decide
  refine htells.mpr fun t ht => ?_
  obtain ⟨hname, hreason, hsign⟩ := hplain t ht
  exact hlegible t hname hreason hsign

/-- A passed case whose name reads as a second, failed one. -/
def forged : SuiteResult :=
  let results := [⟨"first\nnot ok 2 - second", .passed, 0, [], none, none⟩]
  ⟨"cases", results, .tally results 0, none⟩

theorem forged_misread :
    (forged.results.map (·.name)).Nodup ∧
    (∀ r ∈ forged.results, Text.trim r.name.toList ≠ []) ∧
    linesWith resultStarts (suite forged) =
      ["ok 1 - first".toList, "not ok 2 - second".toList] ∧
    ¬Tells (suite forged) forged.results := by
  have hfound : linesWith resultStarts (suite forged) =
      ["ok 1 - first".toList, "not ok 2 - second".toList] := by
    decide +kernel
  refine ⟨by decide, by decide, hfound, fun h => ?_⟩
  have hcount := h.count
  rw [hfound] at hcount
  cases hcount

end StateCheck.Report.Tap
