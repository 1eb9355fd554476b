import StateCheck.Intrinsic.Reader
import StateCheck.Proofs.Results
import StateCheck.Proofs.Text.Blank
/-!
How the arguments of a call are read.

What the readers of calls and arguments take from a text does not depend on what comes after it, nor
on the bound on their steps as long as the bound is not below the length of what they take
(`Intrinsic.readers_local`). So the text of an argument (`Intrinsic.Arg.Spelled`) is read in the
same way in every call.
-/
namespace StateCheck
set_option autoImplicit false

namespace Intrinsic

variable {c : Char} {cs text token left rest blanks : List Char} {arg : Arg} {args : List Arg}
  {call : Call} {n steps : Nat}

/-! ## White space -/

def Blank (cs : List Char) : Prop := ∀ c ∈ cs, Text.isBlank c = true

theorem blank_nil : Blank [] := List.forall_mem_nil _

theorem skipBlanks_append (h : Blank blanks) (rest : List Char) :
    skipBlanks (blanks ++ rest) = skipBlanks rest := List.dropWhile_append_of_pos h

theorem skipBlanks_cons (h : Text.isBlank c = false) (rest : List Char) :
    skipBlanks (c :: rest) = c :: rest :=
  List.dropWhile_cons_of_neg (by rw [h]; exact Bool.false_ne_true)

theorem exists_blanks (cs : List Char) : ∃ blanks, Blank blanks ∧ cs = blanks ++ skipBlanks cs :=
  ⟨cs.takeWhile Text.isBlank, List.all_eq_true.mp List.all_takeWhile,
    List.takeWhile_append_dropWhile.symm⟩

theorem isBlank_of_skipBlanks (h : skipBlanks cs = c :: rest) : Text.isBlank c = false :=
  Text.not_of_dropWhile h

@[simp] theorem skipBlanks_skipBlanks (cs : List Char) :
    skipBlanks (skipBlanks cs) = skipBlanks cs := by
  cases h : skipBlanks cs with
  | nil => rfl
  | cons c rest => exact skipBlanks_cons (isBlank_of_skipBlanks h) rest

/-- An argument ends here: a comma or a closing parenthesis is next. -/
def Ends (rest : List Char) : Prop := ∃ c more, skipBlanks rest = c :: more ∧ (c = ',' ∨ c = ')')

theorem Ends.append (h : Ends rest) (hblanks : Blank blanks) : Ends (blanks ++ rest) := by
  rw [Ends, skipBlanks_append hblanks]
  exact h

/-! ## Quoted texts -/

theorem readQuoted_escape (c : Char) (rest : List Char) : readQuoted ('\\' :: c :: rest) =
    (fun p => (if c = '\'' ∨ c = '\\' then c :: p.1 else '\\' :: c :: p.1, p.2)) <$>
      readQuoted rest := by
  rw [readQuoted]
  cases readQuoted rest <;> rfl

theorem readQuoted_cons (hslash : c ≠ '\\') (hquote : c ≠ '\'') (rest : List Char) :
    readQuoted (c :: rest) = (fun p => (c :: p.1, p.2)) <$> readQuoted rest := by
  rw [readQuoted, if_neg hquote]
  · cases readQuoted rest <;> rfl
  · simp [hslash]
  · simp [hslash]

theorem readQuoted_quote (rest : List Char) : readQuoted ('\'' :: rest) = .ok ([], rest) := by
  cases rest <;> rfl

theorem readQuoted_local (h : readQuoted cs = .ok (text, left)) :
    ∃ used, cs = used ++ left ∧ ∀ rest, readQuoted (used ++ rest) = .ok (text, rest) := by
  induction cs using readQuoted.induct generalizing text left with
  | case1 => cases h
  | case2 => cases h
  | case3 c cs ih =>
    rw [readQuoted_escape] at h
    obtain ⟨⟨more, left'⟩, hmore, hpair⟩ := map_eq_ok_iff.mp h
    obtain ⟨used, hcs, hused⟩ := ih hmore
    cases hpair
    refine ⟨'\\' :: c :: used, by rw [hcs]; rfl, fun rest => ?_⟩
    rw [List.cons_append, List.cons_append, readQuoted_escape, hused]
    rfl
  | case4 cs hnil hslash =>
    rw [readQuoted_quote] at h
    cases h
    exact ⟨['\''], rfl, readQuoted_quote⟩
  | case5 c cs hnil hslash hquote ih =>
    have hc : c ≠ '\\' := by
      intro hc
      cases cs with
      | nil => exact hnil hc rfl
      | cons d cs => exact hslash d cs hc rfl
    rw [readQuoted_cons hc hquote] at h
    obtain ⟨⟨more, left'⟩, hmore, hpair⟩ := map_eq_ok_iff.mp h
    obtain ⟨used, hcs, hused⟩ := ih hmore
    cases hpair
    refine ⟨c :: used, by rw [hcs]; rfl, fun rest => ?_⟩
    rw [List.cons_append, readQuoted_cons hc hquote, hused]
    rfl

/-! ## Tokens -/

theorem splitToken_cons (depth : Nat) (quote : Option Char) (c : Char) :
    (depth = 0 ∧ quote = none ∧ (c = ',' ∨ c = ')') ∧
      ∀ rest, splitToken depth quote (c :: rest) = ([], c :: rest)) ∨
    ∃ depth' quote', ∀ rest, splitToken depth quote (c :: rest) =
      (c :: (splitToken depth' quote' rest).1, (splitToken depth' quote' rest).2) := by
  cases quote with
  | some q => exact .inr ⟨_, _, fun rest => by rw [splitToken]⟩
  | none =>
    by_cases hquote : c = '\'' ∨ c = '"'
    · exact .inr ⟨depth, some c, fun rest => by simp only [splitToken, if_pos hquote]⟩
    by_cases hopen : c = '[' ∨ c = '('
    · exact .inr ⟨depth + 1, none, fun rest => by
        simp only [splitToken, if_neg hquote, if_pos hopen]⟩
    by_cases hclose : c = ']'
    · exact .inr ⟨depth - 1, none, fun rest => by
        simp only [splitToken, if_neg hquote, if_neg hopen, if_pos hclose]⟩
    by_cases hdepth : depth = 0
    · by_cases hend : c = ',' ∨ c = ')'
      · refine .inl ⟨hdepth, rfl, hend, fun rest => ?_⟩
        rcases hend with rfl | rfl <;> simp [splitToken, hdepth]
      · obtain ⟨hcomma, hparen⟩ := not_or.mp hend
        exact .inr ⟨depth, none, fun rest => by
          simp only [splitToken, if_neg hquote, if_neg hopen, if_neg hclose, if_neg hparen,
            hcomma, false_and, if_false]⟩
    · by_cases hparen : c = ')'
      · exact .inr ⟨depth - 1, none, fun rest => by
          simp only [splitToken, if_neg hquote, if_neg hopen, if_neg hclose, if_pos hparen,
            if_neg hdepth]⟩
      · exact .inr ⟨depth, none, fun rest => by
          simp only [splitToken, if_neg hquote, if_neg hopen, if_neg hclose, if_neg hparen,
            hdepth, and_false, if_false]⟩

/-- Before the end of an argument a token takes only the white space. -/
theorem splitToken_of_ends (h : Ends rest) :
    splitToken 0 none rest = (rest.takeWhile Text.isBlank, skipBlanks rest) := by
  obtain ⟨d, more, hskip, hd⟩ := h
  induction rest with
  | nil => cases hskip
  | cons c rest ih =>
    cases hblank : Text.isBlank c with
    | true =>
      have hne : ∀ d, Text.isBlank d = false → c ≠ d := by
        rintro d hd rfl
        exact Bool.false_ne_true (hd.symm.trans hblank)
      have hkeep : splitToken 0 none (c :: rest) =
          (c :: (splitToken 0 none rest).1, (splitToken 0 none rest).2) := by
        simp only [splitToken, hne '\'' (by decide), hne '"' (by decide), hne '[' (by decide),
          hne '(' (by decide), hne ']' (by decide), hne ')' (by decide), hne ',' (by decide),
          or_self, false_and, if_false]
      have hcons : skipBlanks (c :: rest) = skipBlanks rest := List.dropWhile_cons_of_pos hblank
      rw [hcons] at hskip
      rw [hkeep, ih hskip, List.takeWhile_cons_of_pos hblank, hcons]
    | false =>
      rw [skipBlanks_cons hblank] at hskip
      obtain ⟨rfl, -⟩ := List.cons.inj hskip
      rw [skipBlanks_cons hblank, List.takeWhile_cons_of_neg (by simp [hblank])]
      rcases hd with rfl | rfl <;> simp [splitToken]

theorem splitToken_local {depth : Nat} {quote : Option Char}
    (h : splitToken depth quote cs = (token, left)) (hleft : left ≠ []) :
    cs = token ++ left ∧ (∃ c more, left = c :: more ∧ (c = ',' ∨ c = ')')) ∧
    ∀ rest, Ends rest →
      splitToken depth quote (token ++ rest) =
        (token ++ rest.takeWhile Text.isBlank, skipBlanks rest) := by
  induction cs generalizing depth quote token with
  | nil =>
    cases h
    exact absurd rfl hleft
  | cons c cs ih =>
    rcases splitToken_cons depth quote c with ⟨rfl, rfl, hend, hstop⟩ | ⟨depth', quote', hkeep⟩
    · rw [hstop] at h
      cases h
      exact ⟨rfl, ⟨c, cs, rfl, hend⟩, fun rest => splitToken_of_ends⟩
    · rw [hkeep] at h
      obtain ⟨htoken, hleft'⟩ := Prod.mk.inj h
      obtain ⟨hcs, hend, hrest⟩ := ih (Prod.ext rfl hleft')
      subst htoken
      refine ⟨congrArg (c :: ·) hcs, hend, fun rest hends => ?_⟩
      rw [List.cons_append, hkeep, hrest rest hends]
      rfl

theorem readToken_local (h : readToken (c :: cs) = (token, left)) (hleft : left ≠ [])
    (hc : Text.isBlank c = false) (hend : c ≠ ',' ∧ c ≠ ')') :
    ∃ used, cs = used ++ left ∧ ∀ rest, Ends rest →
      readToken (c :: used ++ rest) = (token, skipBlanks rest) := by
  cases hsplit : splitToken 0 none (c :: cs) with
  | mk raw left' =>
    rw [readToken, hsplit] at h
    obtain ⟨rfl, rfl⟩ := Prod.mk.inj h
    obtain ⟨hcs, ⟨d, more, rfl, hd⟩, hrest⟩ := splitToken_local hsplit hleft
    cases raw with
    | nil =>
      obtain ⟨rfl, -⟩ := List.cons.inj hcs
      rcases hd with rfl | rfl
      · exact absurd rfl hend.1
      · exact absurd rfl hend.2
    | cons c' used =>
      obtain ⟨rfl, htail⟩ := List.cons.inj hcs
      refine ⟨used, htail, fun rest hends => ?_⟩
      rw [readToken, hrest rest hends]
      dsimp only
      rw [Text.trim_append hc (List.all_eq_true.mp List.all_takeWhile)]

/-! ## Texts of arguments and calls -/

/-- The text reads as this argument wherever the argument ends after it, and nothing but white space
is left before the end. -/
def Arg.Spelled (text : List Char) (arg : Arg) : Prop :=
  ∀ rest steps, Ends rest → text.length < steps → ∃ left,
    readArg steps (skipBlanks (text ++ rest)) = .ok (arg, left) ∧ skipBlanks left = skipBlanks rest

/-- The text reads as these arguments with the closing parenthesis, whatever follows. -/
def ArgsSpelled (text : List Char) (args : List Arg) : Prop :=
  ∀ rest steps, text.length < steps → readArgs steps (text ++ rest) = .ok (args, rest)

/-- The text reads as this call, whatever follows. -/
def Call.Spelled (text : List Char) (call : Call) : Prop :=
  ∀ rest steps, text.length ≤ steps → readCall steps (text ++ rest) = .ok (call, rest)

theorem Arg.Spelled.append_left (h : arg.Spelled text) (hblanks : Blank blanks) :
    arg.Spelled (blanks ++ text) := by
  intro rest steps hends hsteps
  rw [List.append_assoc, skipBlanks_append hblanks]
  rw [List.length_append] at hsteps
  exact h rest steps hends (by omega)

theorem Arg.Spelled.append_right (h : arg.Spelled text) (hblanks : Blank blanks) :
    arg.Spelled (text ++ blanks) := by
  intro rest steps hends hsteps
  rw [List.length_append] at hsteps
  obtain ⟨left, hread, hleft⟩ := h (blanks ++ rest) steps (hends.append hblanks) (by omega)
  rw [skipBlanks_append hblanks] at hleft
  exact ⟨left, List.append_assoc .. ▸ hread, hleft⟩

theorem readArgs_skipBlanks (n : Nat) (cs : List Char) :
    readArgs (n + 1) (skipBlanks cs) = readArgs (n + 1) cs := by
  rw [readArgs, readArgs, skipBlanks_skipBlanks]

theorem ArgsSpelled.append_left (h : ArgsSpelled text args) (hblanks : Blank blanks) :
    ArgsSpelled (blanks ++ text) args := by
  intro rest steps hsteps
  rw [List.length_append] at hsteps
  obtain ⟨steps, rfl⟩ : ∃ n, steps = n + 1 := ⟨steps - 1, by omega⟩
  rw [← readArgs_skipBlanks, List.append_assoc, skipBlanks_append hblanks, readArgs_skipBlanks]
  exact h rest _ (by omega)

theorem argsSpelled_last (h : arg.Spelled text) (hblanks : Blank blanks) :
    ArgsSpelled (text ++ (blanks ++ [')'])) [arg] := by
  intro rest steps hsteps
  obtain ⟨steps, rfl⟩ : ∃ n, steps = n + 1 := ⟨steps - 1, by omega⟩
  have hrest : skipBlanks (blanks ++ ')' :: rest) = ')' :: rest := by
    rw [skipBlanks_append hblanks, skipBlanks_cons (by decide)]
  obtain ⟨left, hread, hleft⟩ := h (blanks ++ ')' :: rest) steps ⟨')', rest, hrest, .inr rfl⟩ (by
    simp only [List.length_append, List.length_singleton] at hsteps
    omega)
  have htext : text ++ (blanks ++ [')']) ++ rest = text ++ (blanks ++ ')' :: rest) := by simp
  simp only [htext, readArgs, hread, bind, Except.bind, hleft, hrest]
  rfl

theorem argsSpelled_cons {more : List Char} (h : arg.Spelled text) (hblanks : Blank blanks)
    (hmore : ArgsSpelled more args) :
    ArgsSpelled (text ++ (blanks ++ ',' :: more)) (arg :: args) := by
  intro rest steps hsteps
  obtain ⟨steps, rfl⟩ : ∃ n, steps = n + 1 := ⟨steps - 1, by omega⟩
  simp only [List.length_append, List.length_cons] at hsteps
  have hrest : skipBlanks (blanks ++ ',' :: (more ++ rest)) = ',' :: (more ++ rest) := by
    rw [skipBlanks_append hblanks, skipBlanks_cons (by decide)]
  obtain ⟨left, hread, hleft⟩ :=
    h (blanks ++ ',' :: (more ++ rest)) steps ⟨',', _, hrest, .inl rfl⟩ (by omega)
  have htext : text ++ (blanks ++ ',' :: more) ++ rest =
      text ++ (blanks ++ ',' :: (more ++ rest)) := by simp
  simp only [htext, readArgs, hread, bind, Except.bind, hleft, hrest,
    hmore rest steps (by omega)]
  rfl

/-! ## One argument -/

theorem readArg_quote (rest : List Char) : readArg (n + 1) ('\'' :: rest) =
    (fun p => (.text (String.ofList p.1), p.2)) <$> readQuoted rest := by
  rw [readArg, if_pos rfl]
  cases readQuoted rest <;> rfl

theorem readArg_path (rest : List Char) : readArg (n + 1) ('$' :: rest) =
    .ok (.path (String.ofList (readToken ('$' :: rest)).1), (readToken ('$' :: rest)).2) := by
  rw [readArg, if_neg (by decide), if_pos rfl]

theorem readArg_alpha (hc : c.isAlpha = true) (rest : List Char) : readArg (n + 1) (c :: rest) =
    match wordLiteral? (readToken (c :: rest)).1 with
    | some v => .ok (.literal v, (readToken (c :: rest)).2)
    | none => (fun p => (.call p.1.name p.1.args, p.2)) <$> readCall n (c :: rest) := by
  have hquote : c ≠ '\'' := by
    rintro rfl
    cases hc
  have hdollar : c ≠ '$' := by
    rintro rfl
    cases hc
  rw [readArg, if_neg hquote, if_neg hdollar, if_pos hc]
  cases readToken (c :: rest) with
  | mk word left =>
    dsimp only
    cases wordLiteral? word with
    | some v => rfl
    | none => cases readCall n (c :: rest) <;> rfl

theorem readArg_number (hc : c = '-' ∨ c.isDigit = true) (rest : List Char) :
    readArg (n + 1) (c :: rest) =
      match Number.read? (readToken (c :: rest)).1 with
      | some v => .ok (.literal (.num v), (readToken (c :: rest)).2)
      | none => .error (.badNumber (String.ofList (readToken (c :: rest)).1),
          (readToken (c :: rest)).2) := by
  have hne : ∀ d : Char, d.isDigit = false → d ≠ '-' → c ≠ d := by
    rintro d hdigit hminus rfl
    rcases hc with rfl | hc
    · exact hminus rfl
    · exact Bool.false_ne_true (hdigit.symm.trans hc)
  have halpha : ¬ c.isAlpha = true := by
    rcases hc with rfl | hc
    · decide
    · exact Text.not_isAlpha_of_isDigit hc
  rw [readArg, if_neg (hne '\'' (by decide) (by decide)), if_neg (hne '$' (by decide) (by decide)),
    if_neg halpha]
  exact if_pos hc

theorem readArg_ok_head (h : readArg n (c :: rest) = .ok (arg, left)) :
    c = '\'' ∨ c = '$' ∨ c.isAlpha = true ∨ c = '-' ∨ c.isDigit = true := by
  cases n with
  | zero => cases h
  | succ n =>
    refine Decidable.byContradiction fun hc => ?_
    simp only [not_or] at hc
    obtain ⟨hquote, hdollar, halpha, hminus, hdigit⟩ := hc
    rw [readArg, if_neg hquote, if_neg hdollar, if_neg halpha, if_neg (by simp [hminus, hdigit])]
      at h
    cases h

theorem head?_of_readArgs (h : readArgs n cs = .ok (args, left)) :
    (skipBlanks cs).head? ≠ some ')' := by
  intro hhead
  obtain ⟨rest, hrest⟩ := List.head?_eq_some_iff.mp hhead
  cases n with
  | zero => cases h
  | succ n =>
    rw [readArgs, hrest] at h
    obtain ⟨⟨arg, left'⟩, harg, -⟩ := bind_eq_ok_iff.mp h
    rcases readArg_ok_head harg with h | h | h | h | h <;> cases h

theorem spelled_of_readToken (hc : Text.isBlank c = false) (hend : c ≠ ',' ∧ c ≠ ')')
    (hleft : (readToken (c :: cs)).2 ≠ [])
    (h : ∀ n more, (readToken (c :: more)).1 = (readToken (c :: cs)).1 →
      readArg (n + 1) (c :: more) = .ok (arg, (readToken (c :: more)).2)) :
    ∃ text, c :: cs = text ++ (readToken (c :: cs)).2 ∧ arg.Spelled text := by
  generalize htoken : readToken (c :: cs) = pair at hleft h ⊢
  obtain ⟨token, left⟩ := pair
  obtain ⟨used, hcs, hused⟩ := readToken_local htoken hleft hc hend
  refine ⟨c :: used, congrArg (c :: ·) hcs, fun rest steps hends hsteps => ?_⟩
  obtain ⟨steps, rfl⟩ : ∃ n, steps = n + 1 := ⟨steps - 1, by omega⟩
  have hread := hused rest hends
  refine ⟨skipBlanks rest, ?_, skipBlanks_skipBlanks rest⟩
  rw [List.cons_append] at hread ⊢
  rw [skipBlanks_cons hc, h steps (used ++ rest) (by rw [hread]), hread]

theorem spelled_quoted (h : ∀ rest, readQuoted (text ++ rest) = .ok (token, rest)) :
    (Arg.text (String.ofList token)).Spelled ('\'' :: text) := by
  intro rest steps hends hsteps
  obtain ⟨steps, rfl⟩ : ∃ n, steps = n + 1 := ⟨steps - 1, by omega⟩
  refine ⟨rest, ?_, rfl⟩
  rw [List.cons_append, skipBlanks_cons (by decide), readArg_quote, h]
  rfl

theorem spelled_call (hc : c.isAlpha = true) (hblank : Text.isBlank c = false)
    (hword : ∀ rest, wordLiteral? (readToken (c :: rest)).1 = none)
    (h : call.Spelled (c :: text)) : (Arg.call call.name call.args).Spelled (c :: text) := by
  intro rest steps hends hsteps
  obtain ⟨steps, rfl⟩ : ∃ n, steps = n + 1 := ⟨steps - 1, by omega⟩
  refine ⟨rest, ?_, rfl⟩
  rw [List.cons_append, skipBlanks_cons hblank, readArg_alpha hc, hword, ← List.cons_append,
    h rest steps (by omega)]
  rfl

theorem wordLiteral?_readToken (rest : List Char) :
    wordLiteral? (readToken ('S' :: rest)).1 = none := by
  rcases splitToken_cons 0 none 'S' with ⟨-, -, hend, -⟩ | ⟨depth, quote, hkeep⟩
  · rcases hend with hend | hend <;> cases hend
  · obtain ⟨more, hmore⟩ := Text.exists_trim_eq_cons (c := 'S') (by decide)
      (splitToken depth quote rest).1
    rw [readToken, hkeep]
    dsimp only
    rw [hmore]
    simp [wordLiteral?]

/-! ## Calls -/

theorem expect_eq_ok_iff : expect c cs = .ok rest ↔ cs = c :: rest := by
  cases cs with
  | nil => simp [expect]
  | cons d cs =>
    rw [expect]
    by_cases hd : d = c
    · simp [hd]
    · simp [hd]

theorem readCall_eq_ok_iff : readCall (n + 1) cs = .ok (call, left) ↔
    namePrefix <+: cs.takeWhile isNameChar ∧ ∃ more,
      skipBlanks (cs.dropWhile isNameChar) = '(' :: more ∧
      call.name = String.ofList (cs.takeWhile isNameChar) ∧
      (skipBlanks more = ')' :: left ∧ call.args = [] ∨
        (skipBlanks more).head? ≠ some ')' ∧
          readArgs n (skipBlanks more) = .ok (call.args, left)) := by
  rw [← List.isPrefixOf_iff_prefix, readCall]
  dsimp only
  cases namePrefix.isPrefixOf (cs.takeWhile isNameChar) with
  | false => simp
  | true =>
    simp only [if_neg (show ¬ (!true) = true by decide), bind_eq_ok_iff, expect_eq_ok_iff,
      true_and]
    refine exists_congr fun more => and_congr_right fun _ => ?_
    obtain ⟨name, args⟩ := call
    constructor
    · intro h
      split at h
      · next rest hmore =>
        cases h
        exact ⟨rfl, .inl ⟨hmore, rfl⟩⟩
      · next hmore =>
        obtain ⟨⟨args', left'⟩, hargs, hpair⟩ := bind_eq_ok_iff.mp h
        cases hpair
        refine ⟨rfl, .inr ⟨fun hhead => ?_, hargs⟩⟩
        obtain ⟨rest, hrest⟩ := List.head?_eq_some_iff.mp hhead
        exact hmore rest hrest
    · rintro ⟨rfl, ⟨hmore, rfl⟩ | ⟨hhead, hargs⟩⟩
      · rw [hmore]
        rfl
      · split
        · next rest hmore => exact absurd (by rw [hmore]; rfl) hhead
        · exact bind_eq_ok_iff.mpr ⟨_, hargs, rfl⟩

theorem readCall_ok_head (h : readCall n (c :: cs) = .ok (call, left)) : c = 'S' := by
  cases n with
  | zero => cases h
  | succ n =>
    obtain ⟨⟨more, hmore⟩, -⟩ := readCall_eq_ok_iff.mp h
    have htake := List.takeWhile_prefix (l := c :: cs) isNameChar
    rw [← hmore] at htake
    exact (List.cons_prefix_cons.mp htake).1.symm

/-- What follows the opening parenthesis of a call: nothing or arguments, and the closing one. -/
inductive Enclosed : List Char → List Arg → Prop
  | none {blanks : List Char} : Blank blanks → Enclosed (blanks ++ [')']) []
  | some {text : List Char} {args : List Arg} : ArgsSpelled text args → Enclosed text args

theorem Call.spelled_of_enclosed {name before inner : List Char}
    (hname : ∀ c ∈ name, isNameChar c = true) (hstates : namePrefix <+: name)
    (hbefore : Blank before) (hstop : ∀ rest c, (before ++ '(' :: rest).head? = some c →
      isNameChar c = false) (hinner : Enclosed inner args) :
    Call.Spelled (name ++ (before ++ '(' :: inner)) ⟨String.ofList name, args⟩ := by
  intro rest steps hsteps
  simp only [List.length_append, List.length_cons] at hsteps
  -- the name alone is longer than what the parentheses and the list of arguments cost
  have hlength : namePrefix.length ≤ name.length := hstates.length_le
  have hseven : namePrefix.length = 7 := rfl
  obtain ⟨steps, rfl⟩ : ∃ n, steps = n + 1 := ⟨steps - 1, by omega⟩
  have htext : name ++ (before ++ '(' :: inner) ++ rest =
      name ++ (before ++ '(' :: (inner ++ rest)) := by simp
  rw [htext, readCall_eq_ok_iff, List.takeWhile_append_of_pos hname,
    List.dropWhile_append_of_pos hname, Text.takeWhile_of_head (hstop _),
    Text.dropWhile_of_head (hstop _), List.append_nil]
  refine ⟨hstates, inner ++ rest, ?_, rfl, ?_⟩
  · rw [skipBlanks_append hbefore, skipBlanks_cons (by decide)]
  cases hinner with
  | none hblanks =>
    rw [List.append_assoc, skipBlanks_append hblanks]
    exact .inl ⟨skipBlanks_cons (by decide) rest, rfl⟩
  | some hargs =>
    obtain ⟨steps, rfl⟩ : ∃ n, steps = n + 1 := ⟨steps - 1, by omega⟩
    -- an argument that could be read does not start with the closing parenthesis
    have hread := hargs rest (steps + 1) (by omega)
    rw [readArgs_skipBlanks]
    exact .inr ⟨head?_of_readArgs hread, hread⟩

/-- With this bound on their steps the readers take nothing that depends on what follows. Something
has to follow an argument: at the end of the text a token takes everything. -/
structure Local (n : Nat) : Prop where
  call : ∀ {cs call left}, readCall n cs = .ok (call, left) →
    ∃ text, cs = text ++ left ∧ call.Spelled text
  args : ∀ {cs args left}, readArgs n cs = .ok (args, left) →
    ∃ text, cs = text ++ left ∧ ArgsSpelled text args
  arg : ∀ {cs arg left}, readArg n (skipBlanks cs) = .ok (arg, left) → left ≠ [] →
    ∃ text, cs = text ++ left ∧ arg.Spelled text

theorem Local.call_succ (hn : Local n) (h : readCall (n + 1) cs = .ok (call, left)) :
    ∃ text, cs = text ++ left ∧ call.Spelled text := by
  obtain ⟨hstates, more, hopen, hcall, hinner⟩ := readCall_eq_ok_iff.mp h
  obtain ⟨before, hbefore, hdrop⟩ := exists_blanks (cs.dropWhile isNameChar)
  obtain ⟨blanks, hblanks, hmore⟩ := exists_blanks more
  rw [hopen] at hdrop
  have hstop : ∀ rest c, (before ++ '(' :: rest).head? = some c → isNameChar c = false := by
    intro rest c hc
    have hhead : (before ++ '(' :: more).head? = some c := by
      cases before <;> exact hc
    obtain ⟨tail, htail⟩ := List.head?_eq_some_iff.mp hhead
    exact Text.not_of_dropWhile (hdrop.trans htail)
  have henclosed : ∃ inner, more = inner ++ left ∧ Enclosed inner call.args := by
    rcases hinner with ⟨hclose, hargs⟩ | ⟨-, hargs⟩
    · exact ⟨blanks ++ [')'], by rw [hmore, hclose, List.append_assoc]; rfl,
        hargs ▸ .none hblanks⟩
    · obtain ⟨text, htext, hspelled⟩ := hn.args hargs
      exact ⟨blanks ++ text, by rw [hmore, htext, List.append_assoc],
        .some (hspelled.append_left hblanks)⟩
  obtain ⟨inner, hinner, henclosed⟩ := henclosed
  refine ⟨cs.takeWhile isNameChar ++ (before ++ '(' :: inner), ?_, ?_⟩
  · calc cs = cs.takeWhile isNameChar ++ cs.dropWhile isNameChar :=
          List.takeWhile_append_dropWhile.symm
      _ = cs.takeWhile isNameChar ++ (before ++ '(' :: (inner ++ left)) := by rw [hdrop, hinner]
      _ = _ := by simp
  · obtain ⟨name, args⟩ := call
    cases hcall
    exact Call.spelled_of_enclosed (List.all_eq_true.mp List.all_takeWhile) hstates hbefore hstop
      henclosed

theorem Local.args_succ (hn : Local n) (h : readArgs (n + 1) cs = .ok (args, left)) :
    ∃ text, cs = text ++ left ∧ ArgsSpelled text args := by
  rw [readArgs] at h
  obtain ⟨⟨arg, rest⟩, harg, h⟩ := bind_eq_ok_iff.mp h
  obtain ⟨blanks, hblanks, hrest⟩ := exists_blanks rest
  have hne : ∀ c more, skipBlanks rest = c :: more → rest ≠ [] := by
    rintro c more hskip rfl
    cases hskip
  dsimp only at h
  split at h
  · next more hskip =>
    obtain ⟨⟨args', left'⟩, hargs, hpair⟩ := bind_eq_ok_iff.mp h
    cases hpair
    obtain ⟨first, hcs, hfirst⟩ := hn.arg harg (hne _ _ hskip)
    obtain ⟨others, hmore, hothers⟩ := hn.args hargs
    refine ⟨first ++ (blanks ++ ',' :: others), ?_, argsSpelled_cons hfirst hblanks hothers⟩
    rw [hcs, hrest, hskip, hmore]
    simp
  · next more hskip =>
    cases h
    obtain ⟨first, hcs, hfirst⟩ := hn.arg harg (hne _ _ hskip)
    refine ⟨first ++ (blanks ++ [')']), ?_, argsSpelled_last hfirst hblanks⟩
    rw [hcs, hrest, hskip]
    simp
  · cases h
  · cases h

theorem spelled_of_quote (h : readArg (n + 1) ('\'' :: rest) = .ok (arg, left)) :
    ∃ text, '\'' :: rest = text ++ left ∧ arg.Spelled text := by
  rw [readArg_quote] at h
  obtain ⟨⟨token, left'⟩, hquoted, hpair⟩ := map_eq_ok_iff.mp h
  cases hpair
  obtain ⟨used, hrest, hused⟩ := readQuoted_local hquoted
  exact ⟨'\'' :: used, by rw [hrest]; rfl, spelled_quoted hused⟩

theorem spelled_of_dollar (h : readArg (n + 1) ('$' :: rest) = .ok (arg, left))
    (hleft : left ≠ []) : ∃ text, '$' :: rest = text ++ left ∧ arg.Spelled text := by
  rw [readArg_path] at h
  cases h
  refine spelled_of_readToken (by decide) (by decide) hleft fun n more hmore => ?_
  rw [readArg_path, hmore]

theorem Local.spelled_of_alpha (hn : Local n) (halpha : c.isAlpha = true)
    (hc : Text.isBlank c = false) (h : readArg (n + 1) (c :: rest) = .ok (arg, left))
    (hleft : left ≠ []) : ∃ text, c :: rest = text ++ left ∧ arg.Spelled text := by
  have hend : c ≠ ',' ∧ c ≠ ')' := by
    constructor <;> rintro rfl <;> cases halpha
  rw [readArg_alpha halpha] at h
  cases hword : wordLiteral? (readToken (c :: rest)).1 with
  | some v =>
    rw [hword] at h
    cases h
    refine spelled_of_readToken hc hend hleft fun n more hmore => ?_
    rw [readArg_alpha halpha, hmore, hword]
  | none =>
    rw [hword] at h
    obtain ⟨⟨call, left'⟩, hcall, hpair⟩ := map_eq_ok_iff.mp h
    cases hpair
    -- a call starts with the capital of its prefix, and no literal does
    obtain rfl := readCall_ok_head hcall
    obtain ⟨text, htext, hspelled⟩ := hn.call hcall
    cases text with
    | nil => cases hspelled [] 0 (by decide)
    | cons c text =>
      obtain ⟨rfl, -⟩ := List.cons.inj htext
      exact ⟨_, htext, spelled_call rfl (by decide) wordLiteral?_readToken hspelled⟩

theorem spelled_of_numeral (hnumber : c = '-' ∨ c.isDigit = true) (hc : Text.isBlank c = false)
    (h : readArg (n + 1) (c :: rest) = .ok (arg, left)) (hleft : left ≠ []) :
    ∃ text, c :: rest = text ++ left ∧ arg.Spelled text := by
  have hend : c ≠ ',' ∧ c ≠ ')' := by
    constructor <;> rintro rfl <;> rcases hnumber with h | h <;> cases h
  rw [readArg_number hnumber] at h
  cases hvalue : Number.read? (readToken (c :: rest)).1 with
  | none =>
    rw [hvalue] at h
    cases h
  | some v =>
    rw [hvalue] at h
    cases h
    refine spelled_of_readToken hc hend hleft fun n more hmore => ?_
    rw [readArg_number hnumber, hmore, hvalue]

theorem Local.arg_succ (hn : Local n) (h : readArg (n + 1) (skipBlanks cs) = .ok (arg, left))
    (hleft : left ≠ []) : ∃ text, cs = text ++ left ∧ arg.Spelled text := by
  obtain ⟨blanks, hblanks, hcs⟩ := exists_blanks cs
  cases hskip : skipBlanks cs with
  | nil =>
    rw [hskip] at h
    cases h
  | cons c rest =>
    have hc := isBlank_of_skipBlanks hskip
    rw [hskip] at h
    suffices hread : ∃ text, c :: rest = text ++ left ∧ arg.Spelled text by
      obtain ⟨text, htext, hspelled⟩ := hread
      refine ⟨blanks ++ text, ?_, hspelled.append_left hblanks⟩
      rw [hcs, hskip, htext, List.append_assoc]
    -- the reader looks at the first character only
    rcases readArg_ok_head h with rfl | rfl | halpha | hnumber
    · exact spelled_of_quote h
    · exact spelled_of_dollar h hleft
    · exact hn.spelled_of_alpha halpha hc h hleft
    · exact spelled_of_numeral hnumber hc h hleft

theorem readers_local (n : Nat) : Local n := by
  induction n with
  | zero => constructor <;> intro cs value left h <;> cases h
  | succ n ih => exact ⟨ih.call_succ, ih.args_succ, ih.arg_succ⟩

end Intrinsic
end StateCheck
