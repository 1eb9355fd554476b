import StateCheck.Text.Blank
/-!
Where white space and other classes of characters end, and where a text occurs in another.
-/
namespace StateCheck.Text
set_option autoImplicit false

variable {p : Char → Bool} {cs : List Char}

theorem isBlank_of_isDigit {c : Char} (h : c.isDigit = true) : isBlank c = false := by
  have hrange : 48 ≤ c.toNat ∧ c.toNat ≤ 57 := by
    simpa [Char.isDigit, UInt32.le_iff_toNat_le] using h
  simp only [isBlank, Bool.or_eq_false_iff, Bool.and_eq_false_iff, decide_eq_false_iff_not,
    beq_eq_false_iff_ne]
  omega

theorem not_isAlpha_of_isDigit {c : Char} (h : c.isDigit = true) : ¬ c.isAlpha = true := by
  intro halpha
  have hhigh : c.toNat ≤ '9'.toNat := (Char.isDigit_iff_toNat.mp h).2
  rcases (Bool.or_eq_true _ _).mp halpha with hupper | hlower
  · have hlow : 'A'.toNat ≤ c.toNat := UInt32.le_iff_toNat_le.mp (of_decide_eq_true hupper).1
    exact absurd (Nat.le_trans hlow hhigh) (by decide)
  · have hlow : 'a'.toNat ≤ c.toNat :=
      UInt32.le_iff_toNat_le.mp (of_decide_eq_true ((Bool.and_eq_true _ _).mp hlower).1)
    exact absurd (Nat.le_trans hlow hhigh) (by decide)

theorem dropWhile_of_head (h : ∀ c, cs.head? = some c → p c = false) : cs.dropWhile p = cs := by
  cases cs with
  | nil => rfl
  | cons c cs => exact List.dropWhile_cons_of_neg (by rw [h c rfl]; exact Bool.false_ne_true)

theorem takeWhile_of_head (h : ∀ c, cs.head? = some c → p c = false) : cs.takeWhile p = [] := by
  cases cs with
  | nil => rfl
  | cons c cs => exact List.takeWhile_cons_of_neg (by rw [h c rfl]; exact Bool.false_ne_true)

theorem not_of_dropWhile {c : Char} {rest : List Char} (h : cs.dropWhile p = c :: rest) :
    p c = false := by
  have hhead := List.head?_dropWhile_not p cs
  rw [h] at hhead
  exact hhead

theorem trim_of_ends (hhead : ∀ c, cs.head? = some c → isBlank c = false)
    (hlast : ∀ c, cs.getLast? = some c → isBlank c = false) : trim cs = cs := by
  rw [trim, dropWhile_of_head hhead, dropEndWhile, dropWhile_of_head, List.reverse_reverse]
  intro c hc
  exact hlast c (List.head?_reverse ▸ hc)

theorem length_trim_le (cs : List Char) : (trim cs).length ≤ cs.length := by
  have hstart := (List.dropWhile_sublist isBlank (l := cs)).length_le
  have hend := (List.dropWhile_sublist isBlank (l := (cs.dropWhile isBlank).reverse)).length_le
  simp only [trim, dropEndWhile, List.length_reverse] at hend ⊢
  omega

theorem trim_append {c : Char} {blanks : List Char} (hc : isBlank c = false)
    (hblanks : ∀ b ∈ blanks, isBlank b = true) (cs : List Char) :
    trim (c :: cs ++ blanks) = trim (c :: cs) := by
  have hhead : ∀ cs : List Char, (c :: cs).dropWhile isBlank = c :: cs := fun cs =>
    List.dropWhile_cons_of_neg (by rw [hc]; exact Bool.false_ne_true)
  have hend : ∀ b ∈ blanks.reverse, isBlank b = true := fun b hb =>
    hblanks b (List.mem_reverse.mp hb)
  rw [trim, trim, List.cons_append, hhead, hhead, dropEndWhile, dropEndWhile, ← List.cons_append,
    List.reverse_append, List.dropWhile_append_of_pos hend]

theorem exists_trim_eq_cons {c : Char} (hc : isBlank c = false) (cs : List Char) :
    ∃ more, trim (c :: cs) = c :: more := by
  have hc : ¬ isBlank c = true := by
    rw [hc]
    exact Bool.false_ne_true
  rw [trim, List.dropWhile_cons_of_neg hc, dropEndWhile, List.reverse_cons, List.dropWhile_append]
  split
  · exact ⟨[], by rw [List.dropWhile_cons_of_neg hc]; rfl⟩
  · exact ⟨_, List.reverse_concat ..⟩

theorem contains_iff {part : List Char} : contains part cs = true ↔ part <:+: cs := by
  induction cs with
  | nil => simp [contains]
  | cons c cs ih =>
    rw [contains, Bool.or_eq_true, ih, List.isPrefixOf_iff_prefix, List.infix_cons_iff]

end StateCheck.Text
