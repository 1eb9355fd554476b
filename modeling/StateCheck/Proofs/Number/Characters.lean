import StateCheck.Number.Basic
import StateCheck.Proofs.Text.Blank
/-!
The characters of the texts that are read as numbers.

A number starts with a minus sign or a digit, and all its characters are digits, signs, points and
the letter of an exponent (`Number.written_of_read?`). So no number has white space, quotes or
brackets in its text.
-/
namespace StateCheck
set_option autoImplicit false

namespace Number

variable {c : Char} {cs rest : List Char} {n : Number}

def Written (c : Char) : Prop := c.isDigit = true ∨ c ∈ ['-', '+', '.', 'e', 'E']

theorem written_of_takeWhile (h : c ∈ cs.takeWhile Char.isDigit) : Written c :=
  .inl (List.all_eq_true.mp List.all_takeWhile c h)

theorem written_digits (h : ∀ c ∈ cs.dropWhile Char.isDigit, Written c) : ∀ c ∈ cs, Written c := by
  intro c hc
  rw [← List.takeWhile_append_dropWhile (p := Char.isDigit) (l := cs)] at hc
  rcases List.mem_append.mp hc with hc | hc
  · exact written_of_takeWhile hc
  · exact h c hc

theorem written_of_readExponent? {e : Int} (h : readExponent? cs = some e) :
    ∀ c ∈ cs, Written c := by
  have hdigits : ∀ (digits : List Char) (x : Int),
      (if digits.isEmpty || !digits.all Char.isDigit then none else some x) = some e →
        ∀ c ∈ digits, Written c := by
    intro digits x h c hc
    cases hall : digits.all Char.isDigit with
    | true => exact .inl (List.all_eq_true.mp hall c hc)
    | false =>
      rw [hall, Bool.not_false, Bool.or_true] at h
      cases h
  unfold readExponent? at h
  dsimp only at h
  split at h
  · exact List.forall_mem_cons.mpr ⟨.inr (by decide), hdigits _ _ h⟩
  · exact List.forall_mem_cons.mpr ⟨.inr (by decide), hdigits _ _ h⟩
  · exact hdigits _ _ h

theorem written_of_readTail? {negative : Bool} {whole : Digits}
    (h : readTail? negative whole cs = some n) : ∀ c ∈ cs, Written c := by
  have hexponent : ∀ {c : Char} {cs : List Char} {f : Int → Option Number},
      (if c = 'e' ∨ c = 'E' then (readExponent? cs).bind f else none) = some n →
        ∀ d ∈ c :: cs, Written d := by
    intro c cs f h
    split at h
    · next hc =>
      obtain ⟨e, he, -⟩ := Option.bind_eq_some_iff.mp h
      have hletter : Written c := .inr (by rcases hc with rfl | rfl <;> decide)
      exact List.forall_mem_cons.mpr ⟨hletter, written_of_readExponent? he⟩
    · cases h
  unfold readTail? at h
  split at h
  · exact List.forall_mem_nil _
  · next rest =>
    refine List.forall_mem_cons.mpr ⟨.inr (by decide), written_digits ?_⟩
    dsimp only at h
    split at h
    · cases h
    · split at h
      · next hdrop => rw [hdrop]; exact List.forall_mem_nil _
      · next hdrop => rw [hdrop]; exact hexponent h
  · exact hexponent h

theorem written_of_whole {negative : Bool} {whole : Digits}
    (h : readTail? negative whole (cs.dropWhile Char.isDigit) = some n)
    (hne : cs.takeWhile Char.isDigit ≠ []) :
    (∀ c ∈ cs, Written c) ∧ ∃ c rest, cs = c :: rest ∧ c.isDigit = true := by
  refine ⟨written_digits (written_of_readTail? h), ?_⟩
  cases cs with
  | nil => exact absurd rfl hne
  | cons c rest =>
    cases hc : c.isDigit with
    | true => exact ⟨c, rest, rfl, hc⟩
    | false => exact absurd (List.takeWhile_cons_of_neg (by simp [hc])) hne

theorem written_of_read? (h : read? cs = some n) :
    (∀ c ∈ cs, Written c) ∧ ∃ c rest, cs = c :: rest ∧ (c = '-' ∨ c.isDigit = true) := by
  unfold read? at h
  dsimp only at h
  split at h
  · cases h
  · cases h
  · next hne _ =>
    obtain ⟨hall, c, rest, hhead, hc⟩ := written_of_whole h fun hnil => hne hnil
    revert hall hhead
    split
    · intro hall hhead
      exact ⟨List.forall_mem_cons.mpr ⟨.inr (by decide), hall⟩, '-', _, rfl, .inl rfl⟩
    · intro hall hhead
      exact ⟨hall, c, rest, hhead, .inr hc⟩

end Number
end StateCheck
