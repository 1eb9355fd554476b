import StateCheck.Intrinsic.Eval
import StateCheck.Proofs.Intrinsic.Reading
/-!
Quoted texts as arguments.

A text is written in quotes with a backslash before each quote, backslash and brace. Reading takes
away the backslashes before quotes and backslashes (`Intrinsic.readQuoted_guarded`). Those before
braces stay until the argument is evaluated; its value is the text that was written
(`Intrinsic.Arg.eval_quoted`).
-/
namespace StateCheck
set_option autoImplicit false

namespace Intrinsic

variable {c brace : Char} {special cs text left rest : List Char}

/-! ## Backslashes before some characters -/

/-- A text with a backslash before each of the special characters. -/
def guarded (special cs : List Char) : List Char :=
  cs.flatMap fun c => if c ∈ special then ['\\', c] else [c]

theorem guarded_nil (special : List Char) : guarded special [] = [] := rfl

theorem guarded_cons_of_mem (h : c ∈ special) (cs : List Char) :
    guarded special (c :: cs) = '\\' :: c :: guarded special cs := by
  rw [guarded, List.flatMap_cons, if_pos h]
  rfl

theorem guarded_cons_of_not_mem (h : c ∉ special) (cs : List Char) :
    guarded special (c :: cs) = c :: guarded special cs := by
  rw [guarded, List.flatMap_cons, if_neg h]
  rfl

theorem guarded_append (special front back : List Char) :
    guarded special (front ++ back) = guarded special front ++ guarded special back :=
  List.flatMap_append

theorem head?_guarded (h : c ∈ special) (hc : c ≠ '\\') (hrest : cs = [] → rest.head? ≠ some c) :
    (guarded special cs ++ rest).head? ≠ some c := by
  cases cs with
  | nil => exact hrest rfl
  | cons d cs =>
    by_cases hd : d ∈ special
    · rw [guarded_cons_of_mem hd]
      simpa using hc.symm
    · rw [guarded_cons_of_not_mem hd]
      rintro ⟨⟩
      exact hd h

def braces : List Char := ['\x7b', '\x7d']

/-- The characters that have a meaning in quotes, or in a template. -/
def marks : List Char := '\'' :: '\\' :: braces

/-! ## Reading -/

theorem readQuoted_guarded_cons {kept : List Char} (hkept : '\'' ∉ kept ∧ '\\' ∉ kept)
    (h : readQuoted rest = .ok (text, left)) (cs : List Char) :
    readQuoted (guarded ('\'' :: '\\' :: kept) cs ++ rest) =
      .ok (guarded kept cs ++ text, left) := by
  induction cs with
  | nil => exact h
  | cons c cs ih =>
    by_cases hquote : c = '\'' ∨ c = '\\'
    · have hmark : c ∈ '\'' :: '\\' :: kept := by simpa [← or_assoc] using .inl hquote
      have hplain : c ∉ kept := by
        rcases hquote with rfl | rfl
        · exact hkept.1
        · exact hkept.2
      rw [guarded_cons_of_mem hmark, guarded_cons_of_not_mem hplain, List.cons_append,
        List.cons_append, readQuoted_escape, ih]
      simp only [if_pos hquote]
      rfl
    by_cases hmem : c ∈ kept
    · have hmark : c ∈ '\'' :: '\\' :: kept := by simpa using .inr (.inr hmem)
      rw [guarded_cons_of_mem hmark, guarded_cons_of_mem hmem, List.cons_append,
        List.cons_append, readQuoted_escape, ih]
      simp only [if_neg hquote]
      rfl
    · obtain ⟨hquote, hslash⟩ := not_or.mp hquote
      have hmark : c ∉ '\'' :: '\\' :: kept := by simp [hquote, hslash, hmem]
      rw [guarded_cons_of_not_mem hmark, guarded_cons_of_not_mem hmem, List.cons_append,
        readQuoted_cons hslash hquote, ih]
      rfl

theorem readQuoted_guarded (h : readQuoted rest = .ok (text, left)) (cs : List Char) :
    readQuoted (guarded marks cs ++ rest) = .ok (guarded braces cs ++ text, left) :=
  readQuoted_guarded_cons (by decide) h cs

/-! ## Use -/

theorem unescape_brace (brace : Char) (rest : List Char) :
    unescape brace ('\\' :: brace :: rest) = brace :: unescape brace rest := by
  rw [unescape, if_pos ⟨rfl, rfl⟩]

theorem unescape_cons (h : c = '\\' → rest.head? ≠ some brace) :
    unescape brace (c :: rest) = c :: unescape brace rest := by
  cases rest with
  | nil => rfl
  | cons d rest =>
    rw [unescape, if_neg]
    rintro ⟨hc, rfl⟩
    exact h hc rfl

theorem unescape_guarded (hbrace : brace ∉ special) (hslash : '\\' ∉ brace :: special)
    (cs : List Char) : unescape brace (guarded (brace :: special) cs) = guarded special cs := by
  induction cs with
  | nil => rfl
  | cons c cs ih =>
    by_cases hc : c = brace
    · subst hc
      rw [guarded_cons_of_mem List.mem_cons_self, guarded_cons_of_not_mem hbrace, unescape_brace,
        ih]
    -- a backslash of the text itself never stands before the brace: that has one of its own
    have hhead : (guarded (brace :: special) cs ++ []).head? ≠ some brace :=
      head?_guarded List.mem_cons_self (fun h => hslash (by simp [h])) (by simp)
    rw [List.append_nil] at hhead
    by_cases hspecial : c ∈ special
    · have hne : c ≠ '\\' := fun h => hslash (List.mem_cons_of_mem _ (h ▸ hspecial))
      rw [guarded_cons_of_mem (List.mem_cons_of_mem _ hspecial), guarded_cons_of_mem hspecial,
        unescape_cons (by simpa using hc), unescape_cons (fun h => absurd h hne), ih]
    · rw [guarded_cons_of_not_mem (by simp [hc, hspecial]), guarded_cons_of_not_mem hspecial,
        unescape_cons (fun _ => hhead), ih]

theorem guarded_none (cs : List Char) : guarded [] cs = cs := by simp [guarded]

/-- What a quoted argument holds of a text: all of it, with the braces guarded. -/
def Arg.quoted (t : String) : Arg := .text (String.ofList (guarded braces t.toList))

theorem Arg.spelled_quoted (t : String) :
    (Arg.quoted t).Spelled ('\'' :: (guarded marks t.toList ++ ['\''])) := by
  refine Intrinsic.spelled_quoted fun rest => ?_
  rw [List.append_assoc, List.singleton_append, readQuoted_guarded (readQuoted_quote rest),
    List.append_nil]

theorem Arg.eval_quoted (docs : Documents) (t : String) :
    (Arg.quoted t).eval docs = pure (.str t) := by
  rw [Arg.quoted, Arg.eval, unescapeBraces, String.toList_ofList, braces,
    unescape_guarded (by decide) (by decide), unescape_guarded (by decide) (by decide),
    guarded_none, String.ofList_toList]

end Intrinsic
end StateCheck
