import Mathlib.Data.List.Forall2
import StateCheck.Proofs.Path.Write
import StateCheck.Proofs.Results
import StateCheck.Proofs.Text.Blank
/-!
The texts of paths.

A segment has a text between brackets, where a field is quoted, and a field may also be named after
a point (`Path.Segment.Written`). A path whose segments are all written in one of these ways is read
from its text. The text with every field in quotes is read as the path exactly when its segments are
legible (`Path.Segment.Legible`): no field has a closing bracket in its name, since the reader looks
for the first one whether it is quoted or not.
-/
namespace StateCheck
set_option autoImplicit false

/-! ## Indices -/

namespace Natural

theorem ofDigits_toDigits (n : Nat) : ofDigits (Nat.toDigits 10 n) = n := by
  calc ofDigits (Nat.toDigits 10 n)
      = (Nat.toDigits 10 n).foldl (fun m c => 10 * m + (c.toNat - '0'.toNat)) 0 := by
        simp only [ofDigits, Nat.mul_comm]
    _ = Nat.ofDigitChars 10 (Nat.toDigits 10 n) 0 := (Nat.ofDigitChars_eq_foldl ..).symm
    _ = n := Nat.ofDigitChars_ten_toDigits

theorem isDigit_of_mem {n : Nat} {c : Char} (h : c ∈ Nat.toDigits 10 n) : c.isDigit = true :=
  Nat.isDigit_of_mem_toDigits (by decide) (by decide) h

theorem read?_toDigits (n : Nat) :
    read? (Nat.toDigits 10 n) = if n < pow2 64 then some n else none := by
  have hplus : (Nat.toDigits 10 n).head? ≠ some '+' := by
    intro h
    cases isDigit_of_mem (List.mem_of_head? h)
  have hdigits : (Nat.toDigits 10 n).all Char.isDigit = true :=
    List.all_eq_true.mpr fun _ => isDigit_of_mem
  have hne : (Nat.toDigits 10 n).isEmpty = false := by
    rw [List.isEmpty_eq_false_iff]
    exact Nat.toDigits_ne_nil
  simp only [read?, if_neg hplus, hdigits, hne, ofDigits_toDigits]
  rfl

end Natural

namespace Path

variable {s : Segment} {inner rest name : List Char} {segments : List Segment}

/-! ## Between brackets -/

theorem unquoted?_quoted (name : List Char) : unquoted? ('\'' :: name ++ ['\'']) = some name := by
  simp [unquoted?]

theorem length_of_unquoted? (h : unquoted? inner = some name) :
    name.length + 2 ≤ inner.length := by
  rw [unquoted?] at h
  cases inner with
  | nil => cases h
  | cons c rest =>
    have hrest : ∀ q, (if c = q ∧ rest.getLast? = some q then some rest.dropLast else none) =
        some name → name.length + 2 ≤ (c :: rest).length := by
      intro q h
      obtain ⟨⟨-, hlast⟩, hname⟩ := Option.ite_none_right_eq_some.mp h
      have hne : rest ≠ [] := by
        rintro rfl
        cases hlast
      have hpos := List.length_pos_of_ne_nil hne
      rw [← Option.some.inj hname, List.length_dropLast, List.length_cons]
      omega
    rcases Option.or_eq_some_iff.mp h with h | ⟨-, h⟩
    · exact hrest _ h
    · exact hrest _ h

theorem length_of_bracketSegment {field : String} (h : bracketSegment inner = .ok (.field field)) :
    field.toList.length + 2 ≤ inner.length := by
  simp only [bracketSegment] at h
  split at h
  · cases h
  · split at h
    · next name hname =>
      cases h
      rw [String.toList_ofList]
      exact Nat.le_trans (length_of_unquoted? hname) (Text.length_trim_le inner)
    · split at h <;> cases h

theorem bracketSegment_quoted (name : List Char) :
    bracketSegment ('\'' :: name ++ ['\'']) = .ok (.field (String.ofList name)) := by
  have htrim : Text.trim ('\'' :: name ++ ['\'']) = '\'' :: name ++ ['\''] := by
    refine Text.trim_of_ends (fun c hc => ?_) fun c hc => ?_
    · obtain rfl : '\'' = c := Option.some.inj hc
      decide
    · rw [List.getLast?_concat] at hc
      obtain rfl : '\'' = c := Option.some.inj hc
      decide
  simp only [bracketSegment, htrim, unquoted?_quoted]
  exact if_neg (by simp)

theorem bracketSegment_index (i : Nat) :
    bracketSegment (Nat.toDigits 10 i) =
      if i < pow2 64 then .ok (.index i)
      else .error (.badIndex (String.ofList (Nat.toDigits 10 i))) := by
  have hdigit : ∀ c ∈ Nat.toDigits 10 i, c.isDigit = true := fun c => Natural.isDigit_of_mem
  have htrim : Text.trim (Nat.toDigits 10 i) = Nat.toDigits 10 i :=
    Text.trim_of_ends (fun c hc => Text.isBlank_of_isDigit (hdigit c (List.mem_of_head? hc)))
      fun c hc => Text.isBlank_of_isDigit (hdigit c (List.mem_of_getLast? hc))
  have hstar : Nat.toDigits 10 i ≠ ['*'] := by
    intro h
    rw [h] at hdigit
    cases hdigit '*' (List.mem_singleton.mpr rfl)
  have hquoted : unquoted? (Nat.toDigits 10 i) = none := by
    cases hdigits : Nat.toDigits 10 i with
    | nil => rfl
    | cons c rest =>
      have hc := hdigit c (hdigits ▸ List.mem_cons_self ..)
      have hquote : c ≠ '\'' ∧ c ≠ '"' := by
        constructor <;> rintro rfl <;> cases hc
      simp [unquoted?, hquote]
  simp only [bracketSegment, htrim, if_neg hstar, hquoted, Natural.read?_toDigits]
  by_cases hi : i < pow2 64
  · rw [if_pos hi, if_pos hi]
  · rw [if_neg hi, if_neg hi]

/-! ## One segment -/

theorem readSegments_bracket (h : ']' ∉ inner) (rest : List Char) :
    readSegments ('[' :: inner ++ ']' :: rest) = (do
      let segment ← bracketSegment inner
      let more ← readSegments rest
      return segment :: more) := by
  have hall : ∀ c ∈ inner, (c != ']') = true := by
    intro c hc
    have hne : c ≠ ']' := fun heq => h (heq ▸ hc)
    simpa using hne
  rw [List.cons_append, readSegments, if_neg (by decide), if_pos rfl, if_pos (by simp),
    List.takeWhile_append_of_pos hall, List.dropWhile_append_of_pos hall,
    List.takeWhile_cons_of_neg (by decide), List.dropWhile_cons_of_neg (by decide),
    List.append_nil]
  rfl

theorem readSegments_named (h : ∀ c ∈ name, isFieldChar c = true)
    (hrest : ∀ c, rest.head? = some c → isFieldChar c = false) :
    readSegments ('.' :: name ++ rest) = (do
      let segment ← namedSegment name
      let more ← readSegments rest
      return segment :: more) := by
  rw [List.cons_append, readSegments, if_pos rfl, List.takeWhile_append_of_pos h,
    List.dropWhile_append_of_pos h, Text.takeWhile_of_head hrest, Text.dropWhile_of_head hrest,
    List.append_nil]

/-! ## Written segments -/

/-- What the reader makes out between brackets: a field whose name has no closing bracket, an index
of at most 64 bits, a wildcard. -/
def Segment.Legible : Segment → Prop
  | .field name => ']' ∉ name.toList
  | .index i => i < pow2 64
  | .wildcard => True

/-- The ways to write a segment: between brackets, or the name of a field after a point. -/
inductive Segment.Written : Segment → List Char → Prop
  | bracketed {s : Segment} : s.Legible → Written s s.text
  | named {name : String} : name ≠ "" → name ≠ "*" →
      (∀ c ∈ name.toList, c ≠ '.' ∧ c ≠ '[') → Written (.field name) ('.' :: name.toList)

theorem readSegments_text (htext : s.text = '[' :: inner ++ [']']) (hinner : ']' ∉ inner)
    (hsegment : bracketSegment inner = .ok s) (rest : List Char) :
    readSegments (s.text ++ rest) = (s :: ·) <$> readSegments rest := by
  rw [htext, List.append_assoc, List.singleton_append, readSegments_bracket hinner, hsegment]
  rfl

theorem Segment.Legible.readSegments (hs : s.Legible) (rest : List Char) :
    readSegments (s.text ++ rest) = (s :: ·) <$> readSegments rest := by
  cases s with
  | field name =>
    have hname : ']' ∉ name.toList := hs
    have hsegment := bracketSegment_quoted name.toList
    rw [String.ofList_toList] at hsegment
    exact readSegments_text (by simp [Segment.text]) (by simpa using hname) hsegment rest
  | index i =>
    have hi : i < pow2 64 := hs
    have hsegment := bracketSegment_index i
    rw [if_pos hi] at hsegment
    refine readSegments_text (by simp [Segment.text]) (fun h => ?_) hsegment rest
    cases Natural.isDigit_of_mem h
  | wildcard => exact readSegments_text rfl (by decide : ']' ∉ ['*']) rfl rest

theorem Segment.Written.readSegments {text : List Char} (h : s.Written text)
    (hrest : ∀ c, rest.head? = some c → isFieldChar c = false) :
    readSegments (text ++ rest) = (s :: ·) <$> readSegments rest := by
  cases h with
  | bracketed hs => exact hs.readSegments rest
  | @named name hempty hstar hchars =>
    have hname : ∀ c ∈ name.toList, isFieldChar c = true := by
      intro c hc
      simpa [isFieldChar] using hchars c hc
    have hsegment : namedSegment name.toList = .ok (.field name) := by
      rw [namedSegment, if_neg (by simpa using hempty), if_neg, String.ofList_toList]
      intro h
      exact hstar (String.toList_inj.mp h)
    rw [readSegments_named hname hrest, hsegment]
    rfl

theorem Segment.Written.head {text : List Char} (h : s.Written text) :
    ∃ c more, text = c :: more ∧ isFieldChar c = false ∧ c ≠ '$' := by
  cases h with
  | bracketed =>
    cases s <;> exact ⟨'[', _, rfl, by decide, by decide⟩
  | named => exact ⟨'.', _, rfl, by decide, by decide⟩

theorem head_of_written {texts : List (List Char)} (h : List.Forall₂ Segment.Written segments texts)
    {c : Char} (hc : texts.flatten.head? = some c) : isFieldChar c = false ∧ c ≠ '$' := by
  cases h with
  | nil => cases hc
  | cons hs _ =>
    obtain ⟨c', more, rfl, hc'⟩ := hs.head
    obtain rfl : c' = c := Option.some.inj hc
    exact hc'

theorem readSegments_of_written {texts : List (List Char)}
    (h : List.Forall₂ Segment.Written segments texts) :
    readSegments texts.flatten = .ok segments := by
  induction h with
  | nil => rw [List.flatten_nil, readSegments]
  | cons hs hrest ih =>
    rw [List.flatten_cons, hs.readSegments fun c hc => (head_of_written hrest hc).1, ih]
    rfl

/-! ## Paths -/

theorem parse_root (root : Root) (hrest : rest.head? ≠ some '$') :
    parse (String.ofList (root.text ++ rest)) =
      match readSegments rest with
      | .ok segments => .ok ⟨root, segments⟩
      | .error flaw => .error (.invalidPath (String.ofList (root.text ++ rest)) flaw) := by
  cases root with
  | context => rw [parse, String.toList_ofList]; rfl
  | data =>
    rw [parse, String.toList_ofList]
    cases rest with
    | nil => rfl
    | cons c rest =>
      have hc : c ≠ '$' := by simpa using hrest
      rw [Root.text, List.singleton_append]
      split
      · next heq =>
        cases heq
        exact absurd rfl hc
      · next heq =>
        cases heq
        rfl
      · next hroot => exact absurd rfl (hroot _)

/-! ## What is not legible -/

/-- The reader ends a name at its first closing bracket, so that it does not read the whole name. -/
theorem legible_of_readSegments {more : List Segment}
    (h : readSegments (s.text ++ rest) = .ok (s :: more)) : s.Legible := by
  cases s with
  | field name =>
    intro hmem
    obtain ⟨before, after, hname, hbefore⟩ := List.eq_append_cons_of_mem hmem
    have htext : (Segment.field name).text ++ rest =
        '[' :: ('\'' :: before) ++ ']' :: (after ++ ['\'', ']'] ++ rest) := by
      simp [Segment.text, hname]
    rw [htext, readSegments_bracket (by simpa using hbefore)] at h
    obtain ⟨segment, hsegment, h⟩ := bind_eq_ok_iff.mp h
    obtain ⟨segments, -, h⟩ := bind_eq_ok_iff.mp h
    cases h
    have hlength := length_of_bracketSegment hsegment
    rw [hname] at hlength
    simp only [List.length_append, List.length_cons] at hlength
    omega
  | index i =>
    have htext : (Segment.index i).text ++ rest =
        '[' :: Nat.toDigits 10 i ++ ']' :: rest := by simp [Segment.text]
    rw [htext, readSegments_bracket (fun h => nomatch Natural.isDigit_of_mem h),
      bracketSegment_index] at h
    split at h
    · assumption
    · cases h
  | wildcard => trivial

/-- The text with every field in quotes is read as the segments that it is the text of exactly when
all of them are legible. -/
theorem readSegments_flatMap_text :
    readSegments (segments.flatMap Segment.text) = .ok segments ↔
      ∀ s ∈ segments, s.Legible := by
  induction segments with
  | nil => simp [readSegments]
  | cons s segments ih =>
    rw [List.flatMap_cons, List.forall_mem_cons, ← ih]
    constructor
    · intro h
      have hs := legible_of_readSegments h
      rw [hs.readSegments] at h
      obtain ⟨read, hread, hsegments⟩ := map_eq_ok_iff.mp h
      cases hsegments
      exact ⟨hs, hread⟩
    · rintro ⟨hs, hsegments⟩
      rw [hs.readSegments, hsegments]
      rfl

theorem text_eq (p : Path) :
    p.text = String.ofList (p.root.text ++ p.segments.flatMap Segment.text) := rfl

theorem head?_flatMap_text (segments : List Segment) :
    (segments.flatMap Segment.text).head? ≠ some '$' := by
  cases segments with
  | nil => nofun
  | cons s segments =>
    rw [List.flatMap_cons]
    cases s <;> simp [Segment.text]

theorem parse_own_text (p : Path) : parse p.text = .ok p ↔ ∀ s ∈ p.segments, s.Legible := by
  obtain ⟨root, segments⟩ := p
  rw [text_eq, parse_root root (head?_flatMap_text segments), ← readSegments_flatMap_text]
  cases readSegments (segments.flatMap Segment.text) with
  | ok read => simp
  | error flaw => simp

/-- A path is read from its text with every field in quotes exactly when its segments are legible,
fields may as well be named after points, and a legible key leads to its value in every object. -/
theorem parse_text (p : Path) (entries : Fields) (context : Json) :
    (parse p.text = .ok p ↔ ∀ s ∈ p.segments, s.Legible) ∧
    (∀ texts, List.Forall₂ Segment.Written p.segments texts →
      parse (String.ofList (p.root.text ++ texts.flatten)) = .ok p) ∧
    ∀ key v, Fields.get? key entries = some v → (Segment.field key).Legible →
      resolve (text ⟨.data, [.field key]⟩) ⟨.obj entries, context⟩ = .ok v := by
  refine ⟨parse_own_text p, fun texts h => ?_, fun key v hget hkey => ?_⟩
  · have hrest : texts.flatten.head? ≠ some '$' := fun hc => (head_of_written h hc).2 rfl
    rw [parse_root p.root hrest, readSegments_of_written h]
  · have hparse : parse (text ⟨.data, [.field key]⟩) = .ok ⟨.data, [.field key]⟩ :=
      (parse_own_text _).mpr (List.forall_mem_singleton.mpr hkey)
    exact (resolve_eq_ok_iff hparse ⟨rfl, rfl⟩).mpr (find?_cons_eq_some.mpr ⟨v, hget, rfl⟩)

theorem parse_text_every_form :
    parse "$$['it[s'][18446744073709551615].x]y[*]" =
      .ok ⟨.context, [.field "it[s", .index 18446744073709551615, .field "x]y", .wildcard]⟩ ∧
    resolve "$['a.b']" ⟨.obj [("a.b", .null)], .null⟩ = .ok .null := by
  have hquoted : (Segment.field "it[s").Legible := (by decide : ']' ∉ "it[s".toList)
  have hindex : (Segment.index 18446744073709551615).Legible :=
    (by decide : 18446744073709551615 < pow2 64)
  have hname : (Segment.field "x]y").Written ".x]y".toList :=
    .named (by decide) (by decide) (by simp)
  have hwildcard : Segment.wildcard.Legible := trivial
  have hkey : (Segment.field "a.b").Legible := (by decide : ']' ∉ "a.b".toList)
  have hread := parse_text ⟨.context, [.field "it[s", .index 18446744073709551615, .field "x]y",
    .wildcard]⟩ [("a.b", .null)] .null
  exact ⟨hread.2.1 _ (.cons (.bracketed hquoted) (.cons (.bracketed hindex) (.cons hname
      (.cons (.bracketed hwildcard) .nil)))),
    hread.2.2 "a.b" .null rfl hkey⟩

/-- A quoted name with a closing bracket is not read, although a key may have such a name. -/
theorem quoted_bracket_unread :
    text ⟨.data, [.field "a]b"]⟩ = "$['a]b']" ∧
    Fields.get? "a]b" [("a]b", .num (.int 1))] = some (.num (.int 1)) ∧
    parse "$['a]b']" = .error (.invalidPath "$['a]b']" (.badIndex "'a")) ∧
    resolve "$['a]b']" ⟨.obj [("a]b", .num (.int 1))], .null⟩ =
      .error (.invalidPath "$['a]b']" (.badIndex "'a")) := by
  have hparse : parse "$['a]b']" = .error (.invalidPath "$['a]b']" (.badIndex "'a")) := by
    have hbracket : bracketSegment ['\'', 'a'] = .error (.badIndex "'a") := rfl
    simp [parse, readSegments, hbracket]
    rfl
  refine ⟨rfl, rfl, hparse, ?_⟩
  rw [resolve, hparse]
  rfl

end Path
end StateCheck
