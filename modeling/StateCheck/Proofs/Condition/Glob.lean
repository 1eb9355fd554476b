import Mathlib.Data.List.Forall2
import Mathlib.Data.List.Infix
import StateCheck.Condition.Eval
/-!
The texts of a glob pattern.

A pattern is written with tokens (`Glob.Written`) and matches the texts that fall into parts, one
for each token (`Glob.Covers`). The scan goes back to the last star only; this loses no text,
because all that an earlier star could still take the last one can take as well
(`Glob.covers_of_suffix`). So it finds every match (`Glob.scan_eq_true_iff`).
-/
namespace StateCheck
set_option autoImplicit false

namespace Glob

/-! ## Written patterns -/

/-- The tokens that a pattern is written with. -/
inductive Written : List Char → List Token → Prop
  | nil : Written [] []
  | star {cs : List Char} {ts : List Token} : Written cs ts → Written ('*' :: cs) (.any :: ts)
  | escaped (c : Char) {cs : List Char} {ts : List Token} :
      Written cs ts → Written ('\\' :: c :: cs) (.char c :: ts)
  | trailing : Written ['\\'] [.char '\\']
  | plain {c : Char} {cs : List Char} {ts : List Token} :
      c ≠ '*' → c ≠ '\\' → Written cs ts → Written (c :: cs) (.char c :: ts)

theorem written_tokens (cs : List Char) : Written cs (tokens cs) := by
  fun_induction tokens cs with
  | case1 => exact .nil
  | case2 => exact .trailing
  | case3 c rest ih => exact .escaped c ih
  | case4 c rest hlone hescaped ih =>
    split
    · rename_i hstar
      rw [hstar]
      exact .star ih
    · rename_i hstar
      refine .plain hstar ?_ ih
      rintro rfl
      cases rest with
      | nil => exact hlone rfl rfl
      | cons d rest => exact hescaped d rest rfl rfl

theorem Written.eq_tokens {cs : List Char} {ts : List Token} (h : Written cs ts) :
    ts = tokens cs := by
  induction h with
  | nil => rfl
  | star _ ih => rw [ih]; rfl
  | escaped c _ ih => rw [ih]; rfl
  | trailing => rfl
  | plain hstar hback _ ih =>
    rw [ih, tokens, if_neg hstar]
    · exact fun h => absurd h hback
    · exact fun _ _ h => absurd h hback

/-! ## Covered texts -/

/-- The texts of a token. -/
def Token.Matches : Token → List Char → Prop
  | .any, _ => True
  | .char c, s => s = [c]

/-- The text falls into parts that match the tokens in order. -/
def Covers (ts : List Token) (text : List Char) : Prop :=
  ∃ parts, List.Forall₂ Token.Matches ts parts ∧ parts.flatten = text

theorem covers_nil_iff {text : List Char} : Covers [] text ↔ text = [] := by
  constructor
  · rintro ⟨parts, hparts, rfl⟩
    cases hparts
    rfl
  · rintro rfl
    exact ⟨[], .nil, rfl⟩

theorem covers_char_iff {c : Char} {ts : List Token} {text : List Char} :
    Covers (.char c :: ts) text ↔ ∃ rest, text = c :: rest ∧ Covers ts rest := by
  constructor
  · rintro ⟨parts, hparts, rfl⟩
    cases hparts with
    | cons hpart hrest =>
      obtain rfl := hpart
      exact ⟨_, rfl, _, hrest, rfl⟩
  · rintro ⟨rest, rfl, parts, hparts, rfl⟩
    exact ⟨[c] :: parts, .cons rfl hparts, rfl⟩

theorem covers_any_iff {ts : List Token} {text : List Char} :
    Covers (.any :: ts) text ↔ ∃ rest, rest <:+ text ∧ Covers ts rest := by
  constructor
  · rintro ⟨parts, hparts, rfl⟩
    cases hparts with
    | cons _ hrest => exact ⟨_, List.suffix_append _ _, _, hrest, rfl⟩
  · rintro ⟨rest, ⟨part, rfl⟩, parts, hparts, rfl⟩
    exact ⟨part :: parts, .cons trivial hparts, rfl⟩

theorem covers_empty_iff (ts : List Token) : Covers ts [] ↔ ts.all (· == .any) = true := by
  induction ts with
  | nil => simp [covers_nil_iff]
  | cons t ts ih =>
    cases t with
    | any => simp [covers_any_iff, ih]
    | char c => simp [covers_char_iff]

theorem covers_chars_iff {w : List Char} {ts : List Token} {text : List Char} :
    Covers (w.map .char ++ ts) text ↔ ∃ rest, text = w ++ rest ∧ Covers ts rest := by
  induction w generalizing text with
  | nil => simp
  | cons c w ih =>
    simp only [List.map_cons, List.cons_append, covers_char_iff, ih]
    constructor
    · rintro ⟨_, rfl, rest, rfl, h⟩
      exact ⟨rest, rfl, h⟩
    · rintro ⟨rest, rfl, h⟩
      exact ⟨_, rfl, rest, rfl, h⟩

theorem covers_of_suffix {w left text : List Char} {ts : List Token}
    (hsuffix : text <:+ w ++ left) (h : Covers (w.map .char ++ ts) text) :
    ∃ rest, rest <:+ left ∧ Covers ts rest := by
  obtain ⟨rest, rfl, hrest⟩ := covers_chars_iff.mp h
  have hlength : rest.length ≤ left.length := by
    have := hsuffix.length_le
    simp only [List.length_append] at this
    omega
  have hlater : rest <:+ w ++ left := (List.suffix_append w rest).trans hsuffix
  exact ⟨rest, List.suffix_of_suffix_length_le hlater (List.suffix_append w left) hlength, hrest⟩

theorem not_covers_of_stuck {c : Char} {ts : List Token} (h : move c ts = .stuck)
    (cs : List Char) : ¬ Covers ts (c :: cs) := by
  fun_cases move c ts with
  | case1 rest => simp [move] at h
  | case2 rest => simp [move] at h
  | case3 d rest hne =>
    rw [covers_char_iff]
    rintro ⟨_, heq, -⟩
    exact hne (List.cons.inj heq).1.symm
  | case4 => simp [covers_nil_iff]

/-! ## The scan -/

/-- The tokens after the last star begin with what was fitted to them. -/
def Kept (star : Option Star) (ts : List Token) : Prop :=
  ∀ s ∈ star, s.after = s.fitted.reverse.map .char ++ ts

/-- The last star can take more of the text, so that the tokens after it fit what is left. -/
def Reopens (star : Option Star) (text : List Char) : Prop :=
  ∃ s ∈ star, ∃ rest, rest <:+ (s.textBehind text).tail ∧ Covers s.after rest

theorem Kept.push {star : Option Star} {c : Char} {ts : List Token}
    (h : Kept star (.char c :: ts)) : Kept (star.map (·.push c)) ts := by
  intro pushed hpushed
  obtain ⟨s, hs, rfl⟩ := Option.map_eq_some_iff.mp hpushed
  simp [Star.push, h s hs]

theorem kept_fresh (ts : List Token) : Kept (some ⟨ts, []⟩) ts := by
  rintro s ⟨⟩
  rfl

theorem reopens_push {star : Option Star} {c : Char} {cs : List Char} :
    Reopens (star.map (·.push c)) cs ↔ Reopens star (c :: cs) := by
  cases star <;> simp [Reopens, Star.push, Star.textBehind]

theorem Reopens.exists_suffix {star : Option Star} {ts : List Token} {text : List Char}
    (hkept : Kept star ts) (h : Reopens star text) : ∃ rest, rest <:+ text ∧ Covers ts rest := by
  obtain ⟨s, hs, rest, hrest, hcovers⟩ := h
  rw [hkept s hs] at hcovers
  exact covers_of_suffix (hrest.trans (List.tail_suffix _)) hcovers

theorem covers_or_reopens_fresh {ts : List Token} {text : List Char} :
    Covers ts text ∨ Reopens (some ⟨ts, []⟩) text ↔ ∃ rest, rest <:+ text ∧ Covers ts rest := by
  constructor
  · rintro (h | h)
    · exact ⟨text, List.suffix_refl _, h⟩
    · exact h.exists_suffix (kept_fresh ts)
  · rintro ⟨rest, hrest, h⟩
    rcases text with _ | ⟨c, cs⟩
    · rw [List.suffix_nil.mp hrest] at h
      exact .inl h
    · rcases List.suffix_cons_iff.mp hrest with rfl | hrest
      · exact .inl h
      · exact .inr ⟨_, rfl, rest, hrest, h⟩

/-- The scan finds a match wherever one is left, with the last star as the only one to go back
to. -/
theorem scan_eq_true_iff {star : Option Star} {ts : List Token} {text : List Char}
    (hkept : Kept star ts) : scan star ts text = true ↔ Covers ts text ∨ Reopens star text := by
  fun_induction scan star ts text with
  | case1 star ts =>
    rw [← covers_empty_iff]
    refine ⟨.inl, ?_⟩
    rintro (h | h)
    · exact h
    · obtain ⟨rest, hrest, h⟩ := h.exists_suffix hkept
      rwa [List.suffix_nil.mp hrest] at h
  | case2 star ts c cs rest hmove ih =>
    obtain rfl := move_eq_fit_iff.mp hmove
    rw [ih hkept.push, reopens_push]
    simp [covers_char_iff]
  | case3 star ts c cs rest hmove ih =>
    obtain rfl := move_eq_star_iff.mp hmove
    rw [ih (kept_fresh rest), covers_or_reopens_fresh, ← covers_any_iff]
    refine ⟨.inl, ?_⟩
    -- what an older star could still reach, this one reaches too
    rintro (h | h)
    · exact h
    · obtain ⟨later, hlater, h⟩ := h.exists_suffix hkept
      obtain ⟨rest', hrest', h⟩ := covers_any_iff.mp h
      exact covers_any_iff.mpr ⟨rest', hrest'.trans hlater, h⟩
  | case4 ts c cs hmove s ih =>
    rw [ih (kept_fresh s.after), covers_or_reopens_fresh]
    have hstuck := not_covers_of_stuck hmove cs
    simp [Reopens, hstuck]
  | case5 ts c cs hmove =>
    have hstuck := not_covers_of_stuck hmove cs
    simp [Reopens, hstuck]

/-- A pattern has one reading as tokens, and the comparison with it accepts exactly the texts that
fall into parts which match these tokens in order. -/
theorem globMatches_iff_parts (pattern text : String) :
    ∃ ts, (∀ us, Written pattern.toList us ↔ us = ts) ∧
      (globMatches pattern text = true ↔
        ∃ parts, List.Forall₂ Token.Matches ts parts ∧ parts.flatten = text.toList) ∧
      Condition.compares .stringMatches (.str text) (.str pattern) = globMatches pattern text := by
  have hnone : Kept none (tokens pattern.toList) := fun s hs => by cases hs
  refine ⟨tokens pattern.toList, fun us => ?_, ?_, rfl⟩
  · constructor
    · exact Written.eq_tokens
    · rintro rfl
      exact written_tokens pattern.toList
  · rw [globMatches, scan_eq_true_iff hnone]
    simp [Reopens, Covers]

/-- Both stars take a part of the text, and the one behind a backslash stands for itself. -/
example : globMatches "*ab*\\*" "aabab-*" = true ∧ globMatches "*ab*\\*" "aabab-" = false := by cbv

end Glob
end StateCheck
