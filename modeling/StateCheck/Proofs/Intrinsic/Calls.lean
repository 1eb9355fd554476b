import Mathlib.Data.List.Forall2
import Mathlib.Data.List.TakeWhile
import StateCheck.Proofs.Intrinsic.Quoted
/-!
Calls as they are written, and what they make of quoted texts.

A text stands for an argument if a call with just this text has just this argument
(`Intrinsic.Stands`). As arguments are read without what is around them, a call of several such
texts has their arguments, in order (`Intrinsic.parse_callText`).
-/
namespace StateCheck
set_option autoImplicit false

namespace Intrinsic

variable {name text t : String} {texts : List String} {arg : Arg} {args : List Arg}

/-- A name that calls may have, whether or not there is a function of that name. -/
def IsName (name : String) : Prop :=
  (∀ c ∈ name.toList, isNameChar c = true) ∧ namePrefix <+: name.toList

/-- The text of a call: its name, and the texts of its arguments in parentheses. -/
def callText (name : String) (texts : List String) : String :=
  name ++ "(" ++ ", ".intercalate texts ++ ")"

/-- The text can be written where a call wants an argument, and is read as this one. -/
def Stands (text : String) (arg : Arg) : Prop :=
  parse (callText "States.Array" [text]) = .ok ⟨"States.Array", [arg]⟩

/-! ## Reading the text of a call -/

theorem nameChars : isNameChar '(' = false ∧ "States.Array".toList.all isNameChar = true ∧
    formatName.toList.all isNameChar = true := by
  decide +kernel

theorem toList_callText (name : String) (texts : List String) : (callText name texts).toList =
    name.toList ++ '(' :: ([',', ' '].intercalate (texts.map String.toList) ++ [')']) := by
  simp [callText, String.toList_intercalate]

theorem IsName.skipBlanks (h : IsName name) (rest : List Char) :
    skipBlanks (name.toList ++ rest) = name.toList ++ rest := by
  obtain ⟨more, hmore⟩ := h.2
  rw [← hmore]
  exact skipBlanks_cons (by decide) _

theorem argsSpelled_of_forall
    (h : List.Forall₂ (fun text arg => arg.Spelled text.toList) texts args) (hne : texts ≠ []) :
    ArgsSpelled ([',', ' '].intercalate (texts.map String.toList) ++ [')']) args := by
  induction h with
  | nil => exact absurd rfl hne
  | @cons text arg texts args harg hargs ih =>
    cases hargs with
    | nil => simpa using argsSpelled_last harg blank_nil
    | @cons next arg' texts args' hnext hargs =>
      have hblank : Blank [' '] := List.forall_mem_singleton.mpr (by decide)
      have hmore := (ih (List.cons_ne_nil _ _)).append_left hblank
      simpa [List.intercalate_cons_cons] using argsSpelled_cons harg blank_nil hmore

theorem call_spelled (hname : IsName name)
    (h : List.Forall₂ (fun text arg => arg.Spelled text.toList) texts args) :
    Call.Spelled (callText name texts).toList ⟨name, args⟩ := by
  have hinner : Enclosed ([',', ' '].intercalate (texts.map String.toList) ++ [')']) args := by
    cases h with
    | nil => exact .none blank_nil
    | cons harg hargs => exact .some (argsSpelled_of_forall (.cons harg hargs) (by simp))
  have hstop : ∀ rest c, ([] ++ '(' :: rest).head? = some c → isNameChar c = false := by
    rintro rest c ⟨⟩
    exact nameChars.1
  have hspelled := Call.spelled_of_enclosed hname.1 hname.2 blank_nil hstop hinner
  rw [toList_callText]
  simpa using hspelled

theorem parse_of_spelled (hname : IsName name)
    (h : List.Forall₂ (fun text arg => arg.Spelled text.toList) texts args) :
    parse (callText name texts) = .ok ⟨name, args⟩ := by
  have hread := call_spelled hname h [] (2 * (callText name texts).toList.length + 4) (by omega)
  have hskip : skipBlanks (callText name texts).toList = (callText name texts).toList := by
    rw [toList_callText, hname.skipBlanks]
  rw [List.append_nil] at hread
  rw [parse]
  simp only [hskip, hread]
  rfl

/-! ## Texts that stand for arguments -/

theorem readCall_of_parse {call : Call} (h : parse text = .ok call) : ∃ n left,
    readCall (n + 1) (skipBlanks text.toList) = .ok (call, left) ∧ Blank left := by
  rw [parse] at h
  dsimp only at h
  split at h
  · cases h
  · next call' left hread =>
    split at h
    · next hempty =>
      cases h
      exact ⟨_, left, hread, List.dropWhile_eq_nil_iff.mp (List.isEmpty_iff.mp hempty)⟩
    · cases h

theorem readArgs_ne_nil {n : Nat} {cs left : List Char} (h : readArgs n cs = .ok (args, left)) :
    args ≠ [] := by
  cases n with
  | zero => cases h
  | succ n =>
    rw [readArgs] at h
    obtain ⟨⟨arg, left'⟩, -, h⟩ := bind_eq_ok_iff.mp h
    dsimp only at h
    split at h
    · obtain ⟨⟨args', left''⟩, -, hpair⟩ := bind_eq_ok_iff.mp h
      cases hpair
      exact List.cons_ne_nil _ _
    · cases h
      exact List.cons_ne_nil _ _
    · cases h
    · cases h

theorem isName_array : IsName "States.Array" :=
  ⟨List.all_eq_true.mp nameChars.2.1, "Array".toList, rfl⟩

theorem spelled_of_readArgs {n : Nat} {cs left : List Char}
    (h : readArgs (n + 1) cs = .ok ([arg], left)) :
    ∃ text, arg.Spelled text ∧ cs = text ++ ')' :: left := by
  rw [readArgs] at h
  obtain ⟨⟨arg', left'⟩, harg, h⟩ := bind_eq_ok_iff.mp h
  dsimp only at h
  split at h
  · next more hskip =>
    obtain ⟨⟨args', left''⟩, hargs, hpair⟩ := bind_eq_ok_iff.mp h
    cases hpair
    exact absurd rfl (readArgs_ne_nil hargs)
  · next more hskip =>
    cases h
    obtain ⟨blanks, hblanks, hleft⟩ := exists_blanks left'
    rw [hskip] at hleft
    obtain ⟨text, hcs, hspelled⟩ := (readers_local n).arg harg (by simp [hleft])
    exact ⟨text ++ blanks, hspelled.append_right hblanks, by rw [hcs, hleft, List.append_assoc]⟩
  · cases h
  · cases h

theorem Stands.spelled (h : Stands text arg) : arg.Spelled text.toList := by
  obtain ⟨n, left, hread, hleft⟩ := readCall_of_parse h
  have hopen : ∀ c, ('(' :: (text.toList ++ [')'])).head? = some c → isNameChar c = false := by
    rintro c ⟨⟩
    exact nameChars.1
  rw [toList_callText, isName_array.skipBlanks, readCall_eq_ok_iff] at hread
  obtain ⟨-, more, hmore, -, hinner⟩ := hread
  rw [List.dropWhile_append_of_pos isName_array.1, List.map_singleton, List.intercalate_singleton,
    Text.dropWhile_of_head hopen, skipBlanks_cons (by decide)] at hmore
  obtain rfl := (List.cons.inj hmore).2
  rcases hinner with ⟨-, hargs⟩ | ⟨-, hargs⟩
  · cases hargs
  cases n with
  | zero => cases hargs
  | succ n =>
    rw [readArgs_skipBlanks] at hargs
    obtain ⟨text', hspelled, htext⟩ := spelled_of_readArgs hargs
    -- the last closing parenthesis is the one that was read, as only white space is left after it
    rcases List.eq_nil_or_concat' left with rfl | ⟨front, last, rfl⟩
    · rwa [List.append_cancel_right htext]
    · have hends : text.toList ++ [')'] = (text' ++ ')' :: front) ++ [last] := by simpa using htext
      obtain rfl := (List.append_singleton_inj.mp hends).2
      exact absurd (hleft ')' (by simp)) (by decide)

theorem stands_iff : Stands text arg ↔ arg.Spelled text.toList :=
  ⟨Stands.spelled, fun h => parse_of_spelled isName_array (.cons h .nil)⟩

theorem stands_of_readArg {n : Nat}
    (h : readArg n (skipBlanks (text.toList ++ [')'])) = .ok (arg, [')'])) : Stands text arg := by
  obtain ⟨text', htext, hspelled⟩ := (readers_local n).arg h (List.cons_ne_nil _ _)
  rw [stands_iff, List.append_cancel_right htext]
  exact hspelled

theorem spelled_of_stands (h : List.Forall₂ Stands texts args) :
    List.Forall₂ (fun text arg => arg.Spelled text.toList) texts args :=
  h.imp fun _ _ => Stands.spelled

theorem parse_callText (hname : IsName name) (h : List.Forall₂ Stands texts args) :
    parse (callText name texts) = .ok ⟨name, args⟩ :=
  parse_of_spelled hname (spelled_of_stands h)

theorem Stands.call (hname : IsName name) (h : List.Forall₂ Stands texts args) :
    Stands (callText name texts) (.call name args) := by
  rw [stands_iff]
  have hspelled := call_spelled hname (spelled_of_stands h)
  obtain ⟨more, hmore⟩ := hname.2
  rw [toList_callText, ← hmore] at hspelled ⊢
  exact spelled_call rfl (by decide) wordLiteral?_readToken hspelled

/-! ## Quoted texts -/

def quote (t : String) : String := "'" ++ String.ofList (guarded marks t.toList) ++ "'"

theorem stands_quote (t : String) : Stands (quote t) (.quoted t) := by
  have htext : (quote t).toList = '\'' :: (guarded marks t.toList ++ ['\'']) := by simp [quote]
  rw [stands_iff, htext]
  exact Arg.spelled_quoted t

/-- What a call makes of the values of its arguments. -/
def applyNamed (name : String) (values : List Json) : Eval Json :=
  match Function.ofName? name with
  | some f => f.apply name values
  | none => throw (.unsupportedIntrinsic name)

theorem eval_call (docs : Documents) (hname : name ≠ formatName) (args : List Arg) :
    (Arg.call name args).eval docs = evalArgs docs args >>= applyNamed name := by
  rw [Arg.eval]
  exact if_neg hname

theorem evaluate_callText (hname : IsName name) (h : List.Forall₂ Stands texts args)
    (docs : Documents) : evaluate (callText name texts) docs = (Arg.call name args).eval docs := by
  rw [evaluate, parse_callText hname h]
  rfl

theorem bind_of_ok {α β : Type} {x : Eval α} {a : α} {e e' : Entropy} (h : x e = .ok (a, e'))
    (f : α → Eval β) : (x >>= f) e = f a e' := by
  change (x e >>= fun p => f p.1 p.2) = f a e'
  rw [h]
  rfl

/-- A function that draws nothing leaves the source as it is, and fails under its name. -/
theorem apply_eq {f : Function} (hrandom : f ≠ .mathRandom) (huuid : f ≠ .uuid) (name : String)
    (values : List Json) (e : Entropy) : f.apply name values e =
      ((f.value values).mapError (EvalError.intrinsicFailure name)).map fun v => (v, e) := by
  have hvalue : ∀ v : Checked Json,
      (v.mapError (EvalError.intrinsicFailure name) >>= fun v => pure (v, e)) =
        (v.mapError (EvalError.intrinsicFailure name)).map fun v => (v, e) := by
    intro v
    cases v <;> rfl
  cases f with
  | mathRandom => exact absurd rfl hrandom
  | uuid => exact absurd rfl huuid
  | _ => exact hvalue _

theorem evaluate_valueText {f : Function} {docs : Documents} {values : List Json}
    {e e' : Entropy} (hname : IsName name) (hformat : name ≠ formatName)
    (hf : Function.ofName? name = some f) (hrandom : f ≠ .mathRandom) (huuid : f ≠ .uuid)
    (h : List.Forall₂ Stands texts args) (hvalues : evalArgs docs args e = .ok (values, e')) :
    evaluate (callText name texts) docs e =
      ((f.value values).mapError (EvalError.intrinsicFailure name)).map fun v => (v, e') := by
  rw [evaluate_callText hname h, eval_call docs hformat, bind_of_ok hvalues, applyNamed, hf]
  exact apply_eq hrandom huuid name values e'

theorem evalArgs_append (docs : Documents) (before after : List Arg) :
    evalArgs docs (before ++ after) = do
      let xs ← evalArgs docs before
      let ys ← evalArgs docs after
      return xs ++ ys := by
  induction before with
  | nil => simp [evalArgs]
  | cons arg before ih => simp [evalArgs, ih]

theorem evalArgs_quoted (docs : Documents) (before after : List Arg) (t : String) :
    evalArgs docs (before ++ .quoted t :: after) = do
      let xs ← evalArgs docs before
      let ys ← evalArgs docs after
      return xs ++ .str t :: ys := by
  simp [evalArgs_append, evalArgs, Arg.eval_quoted]

end Intrinsic
end StateCheck
