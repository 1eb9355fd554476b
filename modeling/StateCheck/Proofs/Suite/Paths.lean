import StateCheck.Proofs.Suite.Checks
import StateCheck.Proofs.Suite.Expectations
/-!
Lenient comparison of paths.

An expected path matches an actual one exactly when it is left of the actual one after some of its
names are taken out (`pathMatches_lenient_iff`). The comparison makes one search after the other,
each of which stops behind the first place of its name (`occursInOrder_cons_iff`). To stop at the
first place loses nothing: what fits behind a later place of the name also fits behind the first
(`cons_sublist_behind_iff`).
-/
namespace StateCheck
set_option autoImplicit false

/-! ## One search after the other -/

section
variable {name : String} {names path : List String}

/-- One search passes over other names, stops behind the first place of its own and leaves what
follows there to the searches for the other names. -/
theorem occursInOrder_cons_iff :
    occursInOrder (name :: names) path = true ↔ ∃ skipped rest,
      path = skipped ++ name :: rest ∧ name ∉ skipped ∧ occursInOrder names rest = true := by
  induction path with
  | nil => simp [occursInOrder]
  | cons state path ih =>
    rw [occursInOrder]
    by_cases hfound : name = state
    · subst hfound
      rw [if_pos rfl]
      constructor
      · intro h
        exact ⟨[], path, rfl, List.not_mem_nil, h⟩
      · rintro ⟨skipped, rest, hpath, hskipped, h⟩
        cases skipped with
        | nil =>
          cases hpath
          exact h
        | cons other skipped =>
          -- Had the search passed over the head, it would have passed over the name itself.
          cases hpath
          exact absurd (List.mem_cons_self ..) hskipped
    · rw [if_neg hfound, ih]
      constructor
      · rintro ⟨skipped, rest, rfl, hskipped, h⟩
        exact ⟨state :: skipped, rest, rfl, List.not_mem_cons_of_ne_of_not_mem hfound hskipped, h⟩
      · rintro ⟨skipped, rest, hpath, hskipped, h⟩
        cases skipped with
        | nil =>
          cases hpath
          exact absurd rfl hfound
        | cons other skipped =>
          cases hpath
          exact ⟨skipped, rest, rfl, List.not_mem_of_not_mem_cons hskipped, h⟩

/-- A subsequence that starts with a name goes on behind the first place of the name. -/
theorem cons_sublist_behind_iff {skipped rest : List String} (h : name ∉ skipped) :
    (name :: names).Sublist (skipped ++ name :: rest) ↔ names.Sublist rest := by
  induction skipped with
  | nil => exact List.cons_sublist_cons
  | cons other skipped ih =>
    obtain ⟨hother, hskipped⟩ := List.ne_and_not_mem_of_not_mem_cons h
    rw [List.cons_append]
    constructor
    · intro hsub
      exact (ih hskipped).mp (hsub.of_cons_of_ne hother)
    · intro hsub
      exact ((ih hskipped).mpr hsub).cons other

theorem occursInOrder_iff : occursInOrder names path = true ↔ names.Sublist path := by
  induction names generalizing path with
  | nil => simp [occursInOrder]
  | cons name names ih =>
    rw [occursInOrder_cons_iff]
    constructor
    · rintro ⟨skipped, rest, rfl, hskipped, h⟩
      exact (cons_sublist_behind_iff hskipped).mpr (ih.mp h)
    · intro h
      have hname : name ∈ path := h.subset (List.mem_cons_self ..)
      obtain ⟨skipped, rest, rfl, hskipped⟩ := List.eq_append_cons_of_mem hname
      exact ⟨skipped, rest, rfl, hskipped, ih.mpr ((cons_sublist_behind_iff hskipped).mp h)⟩

theorem pathMatches_lenient_iff : pathMatches .lenient names path = true ↔ names.Sublist path :=
  occursInOrder_iff

theorem pathMatches_exact_iff : pathMatches .exact names path = true ↔ names = path :=
  beq_iff_eq

end

theorem pathListsMatch_lenient_iff {expected actual : List (List String)} :
    pathListsMatch .lenient expected actual = true ↔ expected.length = actual.length ∧
      ∀ i (he : i < expected.length) (ha : i < actual.length), expected[i].Sublist actual[i] := by
  simp only [pathListsMatch_iff, pathMatches_lenient_iff, List.forall₂_iff_get,
    List.get_eq_getElem]

/-! ## The paths of scopes -/

namespace Verdict

section
variable {kind : AssertionKind} {noun state : String} {mode : MatchMode} {count : Option Nat}
  {expected actual : List (List String)}

theorem paths_mem_checkScopes_iff :
    .compared kind s!"{noun} paths of '{state}' did not match" (Json.ofPaths expected)
        (Json.ofPaths actual) ∈ checkScopes kind noun mode ⟨state, count, some expected⟩ actual ↔
      pathListsMatch mode expected actual = false := by
  rw [checkScopes, List.mem_append]
  constructor
  · rintro (hcount | hpaths)
    · -- A complaint about the count compares numbers, not lists of paths.
      cases count with
      | none => cases hcount
      | some n => cases congrArg AssertionFailure.expected (eq_of_mem_unless hcount)
    · cases hmatch : pathListsMatch mode expected actual with
      | false => rfl
      | true => simp [hmatch] at hpaths
  · intro h
    refine .inr ?_
    simp [h]

theorem checkScopes_eq_nil_iff :
    checkScopes kind noun mode ⟨state, count, some expected⟩ actual = [] ↔
      (∀ n ∈ count, n = actual.length) ∧ pathListsMatch mode expected actual = true := by
  rw [checkScopes, List.append_eq_nil_iff]
  refine and_congr ?_ ?_
  · cases count <;> simp
  · simp

end

end Verdict

open Verdict

/-! ## Subsequences -/

/-- An expected path matches leniently exactly when it is a subsequence of the actual one, so each
name comes in it at most as often as there. The relation is reflexive and transitive, and an exact
match is a lenient one. Of the scopes of a container there is a complaint about the paths unless
there are as many as expected and each path has the expected one as a subsequence; apart from it,
only the count can be wrong. -/
theorem pathMatches_subsequences :
    (∀ e a : List String, pathMatches .lenient e a = true ↔ e.Sublist a) ∧
    (∀ e a : List String, pathMatches .lenient e a = true →
      ∀ name, e.count name ≤ a.count name) ∧
    (∀ a : List String, pathMatches .lenient a a = true) ∧
    (∀ e a b : List String, pathMatches .lenient e a = true → pathMatches .lenient a b = true →
      pathMatches .lenient e b = true) ∧
    (∀ e a : List String, pathMatches .exact e a = true → pathMatches .lenient e a = true) ∧
    ∀ (kind : AssertionKind) (noun state : String) (count : Option Nat)
      (expected actual : List (List String)),
      let failures := checkScopes kind noun .lenient ⟨state, count, some expected⟩ actual
      let complaint := AssertionFailure.compared kind s!"{noun} paths of '{state}' did not match"
        (Json.ofPaths expected) (Json.ofPaths actual)
      (complaint ∉ failures ↔ expected.length = actual.length ∧
        ∀ i (he : i < expected.length) (ha : i < actual.length),
          pathMatches .lenient expected[i] actual[i] = true) ∧
      (failures = [] ↔ (∀ n ∈ count, n = actual.length) ∧ complaint ∉ failures) := by
  refine ⟨fun e a => pathMatches_lenient_iff, fun e a h name => ?_, fun a => ?_,
    fun e a b hea hab => ?_, fun e a h => ?_, ?_⟩
  · exact (pathMatches_lenient_iff.mp h).count_le name
  · exact pathMatches_lenient_iff.mpr (List.Sublist.refl a)
  · rw [pathMatches_lenient_iff] at hea hab ⊢
    exact hea.trans hab
  · obtain rfl := pathMatches_exact_iff.mp h
    exact pathMatches_lenient_iff.mpr (List.Sublist.refl e)
  · intro kind noun state count expected actual failures complaint
    have hpaths : complaint ∉ failures ↔ pathListsMatch .lenient expected actual = true := by
      rw [paths_mem_checkScopes_iff, Bool.not_eq_false]
    refine ⟨?_, ?_⟩
    · simp only [hpaths, pathListsMatch_lenient_iff, pathMatches_lenient_iff]
    · rw [hpaths]
      exact checkScopes_eq_nil_iff

/-- A poll that is made twice: two polls are found in the path and three are not. -/
theorem pathMatches_subsequences_polling :
    let path := ["Start", "Poll", "Wait", "Poll", "Done"]
    pathMatches .lenient ["Poll", "Poll"] ["Poll", "Wait", "Poll"] = true ∧
      pathMatches .lenient ["Poll", "Wait", "Poll"] path = true ∧
      pathMatches .lenient ["Poll", "Poll"] path = true ∧
      pathMatches .lenient ["Poll", "Poll", "Poll"] path = false ∧
      pathMatches .exact path path = true ∧ pathMatches .lenient path path = true ∧
      checkScopes .map "iteration" .lenient ⟨"Each", some 2, some [["Poll", "Poll"], []]⟩
        [path, ["Skip"]] = [] := by
  intro path
  obtain ⟨-, hcount, -, htrans, hexact, hscopes⟩ := pathMatches_subsequences
  have hinner : pathMatches .lenient ["Poll", "Poll"] ["Poll", "Wait", "Poll"] = true := by decide
  have houter : pathMatches .lenient ["Poll", "Wait", "Poll"] path = true := by decide
  have hself : pathMatches .exact path path = true := by decide
  have htwice := htrans _ _ _ hinner houter
  refine ⟨hinner, houter, htwice, ?_, hself, hexact _ _ hself, ?_⟩
  · rw [← Bool.not_eq_true]
    intro hthrice
    have hle := hcount _ _ hthrice "Poll"
    revert hle
    decide
  · obtain ⟨hpaths, hnil⟩ := hscopes .map "iteration" "Each" (some 2) [["Poll", "Poll"], []]
      [path, ["Skip"]]
    refine hnil.mpr ⟨by simp, hpaths.mpr ⟨rfl, fun i he ha => ?_⟩⟩
    match i with
    | 0 => exact htwice
    | 1 => rfl

end StateCheck
