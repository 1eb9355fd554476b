import StateCheck.Proofs.Intrinsic.Calls
import StateCheck.Proofs.Path.Write
/-!
Formatting a template.

A template is made of pieces of text with a placeholder between two of them. Each placeholder gives
way to the value of an argument and the pieces stay as they were written, unless a piece before a
placeholder ends in a backslash: the backslash then comes to stand before the opening brace, which
hides the placeholder (`Intrinsic.evaluate_format`).
-/
namespace StateCheck
set_option autoImplicit false

namespace Intrinsic

variable {c : Char} {cs rest : List Char} {first next : String} {more texts : List String}
  {args : List Arg} {v : Json} {values : List Json} {docs : Documents} {e e' : Entropy}

/-- How a value stands in a formatted text: a string as it is, anything else as compact JSON. -/
def shown : Json → String
  | .str s => s
  | v => v.compact

/-- The pieces of a template with a placeholder between two of them. -/
def pieces (special : List Char) : String → List String → List Char
  | first, [] => guarded special first.toList
  | first, next :: more =>
    guarded special first.toList ++ '\x7b' :: '\x7d' :: pieces special next more

/-- A template as it is written. -/
def templateText (first : String) (more : List String) : String :=
  "'" ++ String.ofList (pieces marks first more) ++ "'"

/-- A template as it is read. -/
def template (first : String) (more : List String) : String :=
  String.ofList (pieces braces first more)

/-- The piece ends in a backslash, which would stand before the brace of a placeholder. -/
def hides (piece : String) : Bool := piece.toList.getLast? == some '\\'

/-- How many placeholders are hidden by the piece before them. -/
def hidden (first : String) (more : List String) : Nat := (first :: more).dropLast.countP hides

/-! ## Reading -/

theorem readQuoted_pieces {text left : List Char} (h : readQuoted rest = .ok (text, left))
    (first : String) (more : List String) : readQuoted (pieces marks first more ++ rest) =
      .ok (pieces braces first more ++ text, left) := by
  induction more generalizing first with
  | nil => exact readQuoted_guarded h first.toList
  | cons next more ih =>
    have htail : readQuoted ('\x7b' :: '\x7d' :: (pieces marks next more ++ rest)) =
        .ok ('\x7b' :: '\x7d' :: (pieces braces next more ++ text), left) := by
      rw [readQuoted_cons (by decide) (by decide), readQuoted_cons (by decide) (by decide), ih]
      rfl
    simpa [pieces] using readQuoted_guarded htail first.toList

theorem stands_templateText (first : String) (more : List String) :
    Stands (templateText first more) (.text (template first more)) := by
  have htext : (templateText first more).toList = '\'' :: (pieces marks first more ++ ['\'']) := by
    simp [templateText]
  rw [stands_iff, htext]
  refine spelled_quoted fun rest => ?_
  rw [List.append_assoc, List.singleton_append, readQuoted_pieces (readQuoted_quote rest),
    List.append_nil]

/-! ## Filling in -/

theorem interpolate_brace (h : c ∈ braces) (rest : List Char) (values : List Json) :
    interpolate ('\\' :: c :: rest) values = (interpolate rest values).map (c :: ·) := by
  simp only [braces, List.mem_cons, List.not_mem_nil, or_false] at h
  rcases h with rfl | rfl <;> rw [interpolate]

theorem interpolate_cons (hbrace : c ≠ '\x7b')
    (hslash : c = '\\' → ∀ brace ∈ braces, rest.head? ≠ some brace) (values : List Json) :
    interpolate (c :: rest) values = (interpolate rest values).map (c :: ·) := by
  rw [interpolate]
  · rintro more rfl rfl
    exact hslash rfl '\x7b' (by decide) rfl
  · rintro more rfl rfl
    exact hslash rfl '\x7d' (by decide) rfl
  · rintro more rfl
    exact absurd rfl hbrace

/-- A piece goes through unchanged, unless its last character is a backslash before a brace. -/
theorem interpolate_guarded (h : cs.getLast? = some '\\' → ∀ brace ∈ braces,
    rest.head? ≠ some brace) (values : List Json) :
    interpolate (guarded braces cs ++ rest) values = (interpolate rest values).map (cs ++ ·) := by
  induction cs with
  | nil =>
    rw [guarded_nil, List.nil_append]
    cases interpolate rest values <;> rfl
  | cons c cs ih =>
    have hmap : ((interpolate rest values).map (cs ++ ·)).map (c :: ·) =
        (interpolate rest values).map (c :: cs ++ ·) := by
      cases interpolate rest values <;> rfl
    -- the last character of the piece is that of its tail, unless the tail is empty
    have hcs : interpolate (guarded braces cs ++ rest) values =
        (interpolate rest values).map (cs ++ ·) := by
      refine ih fun hlast => h ?_
      cases cs with
      | nil => cases hlast
      | cons d cs => rwa [List.getLast?_cons_cons]
    by_cases hc : c ∈ braces
    · rw [guarded_cons_of_mem hc, List.cons_append, List.cons_append, interpolate_brace hc, hcs,
        hmap]
    · rw [guarded_cons_of_not_mem hc, List.cons_append, interpolate_cons, hcs, hmap]
      · rintro rfl
        exact hc (by decide)
      · rintro rfl brace hbrace
        refine head?_guarded hbrace (by rintro rfl; revert hbrace; decide) fun hnil => ?_
        subst hnil
        exact h rfl brace hbrace

theorem interpolate_pieces_of_shows (h : hides first = false) (v : Json) (values : List Json) :
    interpolate (pieces braces first (next :: more)) (v :: values) = do
      let text ← printed v
      let filled ← interpolate (pieces braces next more) values
      return first.toList ++ (text ++ filled) := by
  have hlast : first.toList.getLast? ≠ some '\\' := by simpa [hides] using h
  rw [pieces, interpolate_guarded (fun hslash => absurd hslash hlast), interpolate]
  cases printed v with
  | error flaw => rfl
  | ok text => cases interpolate (pieces braces next more) values <;> rfl

/-- A hidden placeholder stays as it is, and the backslash before it is lost. -/
theorem interpolate_pieces_of_hides (h : hides first = true) (values : List Json) :
    interpolate (pieces braces first (next :: more)) values =
      (interpolate (pieces braces next more) values).map
        (first.toList.dropLast ++ '\x7b' :: '\x7d' :: ·) := by
  have hfirst : first.toList = first.toList.dropLast ++ ['\\'] :=
    (List.dropLast_append_getLast? _ (by simpa [hides] using h)).symm
  have hguarded : guarded braces first.toList = guarded braces first.toList.dropLast ++ ['\\'] := by
    rw [hfirst, guarded_append, List.dropLast_concat]
    rfl
  have hslash : ∀ brace ∈ braces, ('\\' :: '\x7b' :: '\x7d' :: pieces braces next more).head? ≠
      some brace := by
    rintro brace hbrace ⟨⟩
    revert hbrace
    decide
  rw [pieces, hguarded, List.append_assoc, List.singleton_append,
    interpolate_guarded (fun _ => hslash), interpolate_brace (by decide),
    interpolate_cons (by decide) (fun h => absurd h (by decide))]
  cases interpolate (pieces braces next more) values <;> rfl

theorem interpolate_pieces_nil (values : List Json) : interpolate (pieces braces first []) values =
      (interpolate [] values).map (first.toList ++ ·) := by
  have hrest : ∀ brace ∈ braces, ([] : List Char).head? ≠ some brace := by simp
  rw [← interpolate_guarded (fun _ => hrest), List.append_nil, pieces]

/-! ## Counting -/

theorem hidden_cons (first next : String) (more : List String) :
    hidden first (next :: more) = (if hides first then 1 else 0) + hidden next more := by
  rw [hidden, List.dropLast_cons_cons, List.countP_cons, Nat.add_comm]
  rfl

/-- A template takes one value for each placeholder that is not hidden. -/
theorem length_of_interpolate {text : List Char}
    (h : interpolate (pieces braces first more) values = .ok text) :
    values.length + hidden first more = more.length := by
  induction more generalizing first values text with
  | nil =>
    rw [interpolate_pieces_nil] at h
    cases values with
    | nil => rfl
    | cons v values => cases h
  | cons next more ih =>
    rw [hidden_cons]
    cases hfirst : hides first with
    | true =>
      -- no value is taken here, so that one is missing for every hidden placeholder
      rw [interpolate_pieces_of_hides hfirst] at h
      obtain ⟨filled, hfilled, -⟩ := map_eq_ok_iff.mp h
      have := ih hfilled
      simp
      omega
    | false =>
      cases values with
      | nil =>
        have hlast : first.toList.getLast? ≠ some '\\' := by simpa [hides] using hfirst
        rw [pieces, interpolate_guarded (fun hslash => absurd hslash hlast)] at h
        cases h
      | cons v values =>
        rw [interpolate_pieces_of_shows hfirst] at h
        obtain ⟨printed, -, h⟩ := bind_eq_ok_iff.mp h
        obtain ⟨filled, hfilled, -⟩ := bind_eq_ok_iff.mp h
        have := ih hfilled
        simp
        omega

theorem printed_of_isScalar (h : v.isScalar = true) : printed v = .ok (shown v).toList := by
  cases v with
  | arr items => cases h
  | obj fields => cases h
  | _ => rfl

theorem interpolate_literal (hhides : ∀ piece ∈ (first :: more).dropLast, hides piece = false)
    (hscalar : ∀ v ∈ values, v.isScalar = true) (hlength : values.length = more.length) :
    interpolate (pieces braces first more) values = .ok (first ++
      String.join (List.zipWith (fun v piece => shown v ++ piece) values more)).toList := by
  induction more generalizing first values with
  | nil =>
    obtain rfl := List.length_eq_zero_iff.mp hlength
    rw [interpolate_pieces_nil]
    simp [interpolate, Except.map]
  | cons next more ih =>
    cases values with
    | nil => cases hlength
    | cons v values =>
      rw [List.dropLast_cons_cons, List.forall_mem_cons] at hhides
      rw [List.forall_mem_cons] at hscalar
      rw [interpolate_pieces_of_shows hhides.1, printed_of_isScalar hscalar.1,
        ih hhides.2 hscalar.2 (Nat.succ.inj hlength)]
      simp [bind, Except.bind, pure, Except.pure]

/-! ## The call -/

theorem isName_format : IsName formatName :=
  ⟨List.all_eq_true.mp nameChars.2.2, "Format".toList, rfl⟩

theorem evaluate_formatText (first : String) (more : List String)
    (htexts : List.Forall₂ Stands texts args) (hvalues : evalArgs docs args e = .ok (values, e')) :
    evaluate (callText formatName (templateText first more :: texts)) docs e =
      (format (template first more) values).map fun v => (v, e') := by
  rw [evaluate_callText isName_format (.cons (stands_templateText first more) htexts), Arg.eval,
    if_pos rfl, evalFormat, bind_of_ok hvalues]
  cases format (template first more) values <;> rfl

/-- Formatting is literal: the text is that of the pieces, each as it was written, with the values
between them. It has to have one value for each placeholder that no backslash hides. And a quoted
text is received by every call as it was written, whether the call is the whole expression or an
argument itself. -/
theorem evaluate_format (first : String) (more : List String)
    (htexts : List.Forall₂ Stands texts args) (hvalues : evalArgs docs args e = .ok (values, e')) :
    ((∀ piece ∈ (first :: more).dropLast, hides piece = false) →
      (∀ v ∈ values, v.isScalar = true) → values.length = more.length →
      evaluate (callText formatName (templateText first more :: texts)) docs e = .ok (.str
        (first ++ String.join (List.zipWith (fun v piece => shown v ++ piece) values more)), e')) ∧
    (values.length + hidden first more ≠ more.length → ∃ err,
      evaluate (callText formatName (templateText first more :: texts)) docs e = .error err ∧
        err.name = ErrorName.intrinsicFailure) ∧
    (∀ t, Stands (quote t) (.quoted t) ∧ ∀ docs e, (Arg.quoted t).eval docs e = .ok (.str t, e)) ∧
    (∀ t name before after xs ys, IsName name → name ≠ formatName →
      List.Forall₂ Stands before xs → List.Forall₂ Stands after ys → ∃ call,
        Stands (callText name (before ++ quote t :: after)) call ∧ ∀ docs,
          evaluate (callText name (before ++ quote t :: after)) docs = call.eval docs ∧
          call.eval docs = do
            let vs ← evalArgs docs xs
            let ws ← evalArgs docs ys
            applyNamed name (vs ++ .str t :: ws)) := by
  refine ⟨fun hhides hscalar hlength => ?_, fun hlength => ?_, fun t => ?_, ?_⟩
  · rw [evaluate_formatText first more htexts hvalues, format, template, String.toList_ofList,
      interpolate_literal hhides hscalar hlength]
    simp only [Except.map, String.ofList_toList]
  · rw [evaluate_formatText first more htexts hvalues, format, template, String.toList_ofList]
    cases hfilled : interpolate (pieces braces first more) values with
    | ok text => exact absurd (length_of_interpolate hfilled) hlength
    | error flaw => exact ⟨_, rfl, rfl⟩
  · exact ⟨stands_quote t, fun docs e => by rw [Arg.eval_quoted]; rfl⟩
  · intro t name before after xs ys hname hformat hbefore hafter
    have htexts : List.Forall₂ Stands (before ++ quote t :: after) (xs ++ .quoted t :: ys) :=
      List.rel_append hbefore (.cons (stands_quote t) hafter)
    refine ⟨_, Stands.call hname htexts, fun docs => ⟨evaluate_callText hname htexts docs, ?_⟩⟩
    rw [eval_call docs hformat, evalArgs_quoted]
    simp only [bind_assoc, pure_bind]

/-- A quote, braces and a backslash in the pieces, around a number and a literal. -/
theorem evaluate_format_marks :
    callText formatName [templateText "it's \x7b" ["\x7d: ", "\\"], "$.n", "true"] =
      "States.Format('it\\'s \\\x7b\x7b\x7d\\\x7d: \x7b\x7d\\\\', $.n, true)" ∧
    evaluate (callText formatName [templateText "it's \x7b" ["\x7d: ", "\\"], "$.n", "true"])
      ⟨.obj [("n", .ofNat 7)], .null⟩ (.seeded 0) =
        .ok (.str "it's \x7b7\x7d: true\\", .seeded 0) := by
  have hpath : Stands "$.n" (.path "$.n") := stands_of_readArg (n := 1) rfl
  have hword : Stands "true" (.literal (.bool true)) := stands_of_readArg (n := 1) rfl
  have hp : Path.parse "$.n" = .ok ⟨.data, [.field "n"]⟩ := by
    simp [Path.parse, Path.readSegments, Path.namedSegment, Path.isFieldChar]
    rfl
  have hresolve : Path.resolve "$.n" ⟨.obj [("n", .ofNat 7)], .null⟩ = .ok (.ofNat 7) :=
    (Path.resolve_eq_ok_iff hp ⟨rfl, rfl⟩).mpr rfl
  have hvalues : evalArgs ⟨.obj [("n", .ofNat 7)], .null⟩
      [.path "$.n", .literal (.bool true)] (.seeded 0) =
        .ok ([.ofNat 7, .bool true], .seeded 0) := by
    simp only [evalArgs, Arg.eval, hresolve]
    rfl
  refine ⟨rfl, ?_⟩
  rw [(evaluate_format "it's \x7b" ["\x7d: ", "\\"] (.cons hpath (.cons hword .nil))
    hvalues).1 (by decide) (by decide) rfl]
  rfl

/-- A backslash is the last character before the placeholder, and the value finds none. -/
theorem evaluate_format_backslash :
    callText formatName [templateText "\\" [""], quote "x"] =
      "States.Format('\\\\\x7b\x7d', 'x')" ∧
    evaluate (callText formatName [templateText "\\" [""], quote "x"]) ⟨.obj [], .null⟩
        (.seeded 0) =
      .error (.intrinsicFailure formatName .tooManyArguments) := by
  have hvalues : evalArgs ⟨.obj [], .null⟩ [.quoted "x"] (.seeded 0) =
      .ok ([.str "x"], .seeded 0) := by
    simp only [evalArgs, Arg.eval_quoted]
    rfl
  refine ⟨rfl, ?_⟩
  rw [evaluate_formatText "\\" [""] (.cons (stands_quote "x") .nil) hvalues]
  rfl

end Intrinsic
end StateCheck
