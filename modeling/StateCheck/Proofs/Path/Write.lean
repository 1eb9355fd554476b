import Mathlib.Data.List.Basic
import StateCheck.Path.Write
import StateCheck.Proofs.Json.Sorted
import StateCheck.Proofs.Results
/-!
Writing and reading at one place.

A reference path (`Path.IsReference`) names at most one place of the data. What is written there is
read back, a second write overwrites the first, writing the value that is there changes nothing, and
a value at a place that parts from the written one stays (`Path.set_lens`). Each law is shown of the
segments first, by recursion on them.
-/
namespace StateCheck
set_option autoImplicit false

namespace Path

/-- A path that names one place of the data. -/
def IsReference (p : Path) : Prop := p.root = .data ∧ p.hasWildcard = false

/-- Neither list of segments is a prefix of the other, so that they part at some segment. -/
def Diverge (p q : List Segment) : Prop := ¬ p <+: q ∧ ¬ q <+: p

variable {text : String} {s : Segment} {segments rest : List Segment} {v w d d' : Json}

/-! ## Single segments -/

theorem diverge_cons_self {p q : List Segment} : Diverge (s :: p) (s :: q) ↔ Diverge p q := by
  simp [Diverge, List.cons_prefix_cons]

theorem Diverge.ne_nil {p q : List Segment} (h : Diverge p q) : q ≠ [] := by
  rintro rfl
  exact h.2 (List.nil_prefix ..)

theorem find?_cons_eq_some : find? (s :: rest) d = some v ↔
    ∃ slot, s.follow? d = some slot ∧ find? rest slot = some v := by
  rw [find?, Option.bind_eq_some_iff]

theorem follow?_field_eq_some {name : String} : (Segment.field name).follow? d = some v ↔
    ∃ fields, d = .obj fields ∧ Fields.get? name fields = some v := by
  cases d with
  | obj fields =>
    refine ⟨fun h => ⟨fields, rfl, h⟩, ?_⟩
    rintro ⟨_, hfields, h⟩
    cases hfields
    exact h
  | _ => exact ⟨nofun, nofun⟩

theorem follow?_index_eq_some {i : Nat} : (Segment.index i).follow? d = some v ↔
    ∃ items, d = .arr items ∧ items[i]? = some v := by
  cases d with
  | arr items =>
    refine ⟨fun h => ⟨items, rfl, h⟩, ?_⟩
    rintro ⟨_, hitems, h⟩
    cases hitems
    exact h
  | _ => exact ⟨nofun, nofun⟩

theorem isScalar_of_follow? (h : s.follow? d = some v) : d.isScalar = false := by
  cases s <;> cases d <;> first | rfl | cases h

theorem opened_nil (slot : Json) : opened [] slot = slot := rfl

theorem opened_of_container {slot : Json} (h : slot.isScalar = false) :
    opened rest slot = slot := by
  rw [opened, Bool.and_assoc]
  exact if_neg (by simpa [Json.isScalar] using fun _ => h)

theorem isScalar_of_find? (h : find? segments d = some v) (hne : segments ≠ []) :
    d.isScalar = false := by
  obtain ⟨s, rest, rfl⟩ := List.exists_cons_of_ne_nil hne
  obtain ⟨next, hnext, -⟩ := find?_cons_eq_some.mp h
  exact isScalar_of_follow? hnext

theorem opened_of_find? {slot : Json} (h : find? rest slot = some v) :
    opened rest slot = slot := by
  by_cases hrest : rest = []
  · rw [hrest, opened_nil]
  · exact opened_of_container (isScalar_of_find? h hrest)

theorem write_obj (text : String) (v : Json) (name : String) (rest : List Segment)
    (fields : Fields) : write text v (.field name :: rest) (.obj fields) = (do
      let written ← write text v rest (opened rest ((Fields.get? name fields).getD .empty))
      return .obj (Fields.insert name written fields)) := rfl

theorem write_arr (text : String) (v : Json) (i : Nat) (rest : List Segment)
    (items : List Json) : write text v (.index i :: rest) (.arr items) =
      items[i]?.elim (.error (.pathNotFound text)) fun slot => do
        let written ← write text v rest slot
        return .arr (items.set i written) := by
  rw [write]
  cases items[i]? <;> rfl

theorem write_field_eq_ok {name : String} : write text v (.field name :: rest) d = .ok d' ↔
    ∃ fields written, d = .obj fields ∧
      write text v rest (opened rest ((Fields.get? name fields).getD .empty)) = .ok written ∧
      d' = .obj (Fields.insert name written fields) := by
  constructor
  · intro h
    cases d with
    | obj fields =>
      obtain ⟨written, hwritten, h⟩ := bind_eq_ok_iff.mp h
      exact ⟨fields, written, rfl, hwritten, (Except.ok.inj h).symm⟩
    | _ => cases h
  · rintro ⟨fields, written, rfl, hwritten, rfl⟩
    exact bind_eq_ok_iff.mpr ⟨written, hwritten, rfl⟩

theorem write_index_eq_ok {i : Nat} : write text v (.index i :: rest) d = .ok d' ↔
    ∃ items slot written, d = .arr items ∧ items[i]? = some slot ∧
      write text v rest slot = .ok written ∧ d' = .arr (items.set i written) := by
  constructor
  · intro h
    cases d with
    | arr items =>
      cases hslot : items[i]? with
      | none =>
        rw [write_arr, hslot] at h
        cases h
      | some slot =>
        rw [write_arr, hslot] at h
        obtain ⟨written, hwritten, h⟩ := bind_eq_ok_iff.mp h
        exact ⟨items, slot, written, rfl, hslot, hwritten, (Except.ok.inj h).symm⟩
    | _ => cases h
  · rintro ⟨items, slot, written, rfl, hslot, hwritten, rfl⟩
    rw [write_arr, hslot]
    exact bind_eq_ok_iff.mpr ⟨written, hwritten, rfl⟩

theorem isScalar_of_write (h : write text v (s :: rest) d = .ok d') : d'.isScalar = false := by
  cases s with
  | field name =>
    obtain ⟨fields, written, -, -, rfl⟩ := write_field_eq_ok.mp h
    rfl
  | index i =>
    obtain ⟨items, slot, written, -, -, -, rfl⟩ := write_index_eq_ok.mp h
    rfl
  | wildcard => cases h

theorem opened_of_write (h : write text v rest d = .ok d') : opened rest d' = d' := by
  cases rest with
  | nil => exact opened_nil d'
  | cons s rest => exact opened_of_container (isScalar_of_write h)

/-! ## The laws on segments -/

theorem find?_write (h : write text v segments d = .ok d') : find? segments d' = some v := by
  induction segments generalizing d d' with
  | nil =>
    cases h
    rfl
  | cons s rest ih =>
    refine find?_cons_eq_some.mpr ?_
    cases s with
    | field name =>
      obtain ⟨fields, written, -, hwritten, rfl⟩ := write_field_eq_ok.mp h
      exact ⟨written, Fields.get?_insert_self .., ih hwritten⟩
    | index i =>
      obtain ⟨items, slot, written, -, hslot, hwritten, rfl⟩ := write_index_eq_ok.mp h
      obtain ⟨hi, -⟩ := List.getElem?_eq_some_iff.mp hslot
      exact ⟨written, List.getElem?_set_self hi, ih hwritten⟩
    | wildcard => cases h

theorem write_write (h : write text v segments d = .ok d') (w : Json) :
    write text w segments d' = write text w segments d := by
  induction segments generalizing d d' with
  | nil => rfl
  | cons s rest ih =>
    cases s with
    | field name =>
      obtain ⟨fields, written, rfl, hwritten, rfl⟩ := write_field_eq_ok.mp h
      rw [write_obj, write_obj, Fields.get?_insert_self, Option.getD_some,
        opened_of_write hwritten, ih hwritten]
      simp only [Fields.insert_insert]
    | index i =>
      obtain ⟨items, slot, written, rfl, hslot, hwritten, rfl⟩ := write_index_eq_ok.mp h
      obtain ⟨hi, -⟩ := List.getElem?_eq_some_iff.mp hslot
      rw [write_arr, write_arr, List.getElem?_set_self hi, hslot, Option.elim_some,
        Option.elim_some, ih hwritten]
      simp only [List.set_set]
    | wildcard => cases h

theorem write_of_find? (hd : d.Sorted) (h : find? segments d = some v) (text : String) :
    write text v segments d = .ok d := by
  induction segments generalizing d with
  | nil =>
    cases h
    rfl
  | cons s rest ih =>
    obtain ⟨slot, hslot, hrest⟩ := find?_cons_eq_some.mp h
    cases s with
    | field name =>
      obtain ⟨fields, rfl, hget⟩ := follow?_field_eq_some.mp hslot
      have hinsert := Fields.insert_of_get? hd.1 hget
      refine write_field_eq_ok.mpr ⟨fields, slot, rfl, ?_, by rw [hinsert]⟩
      rw [hget, Option.getD_some, opened_of_find? hrest]
      exact ih (hd.get? hget) hrest
    | index i =>
      obtain ⟨items, rfl, hget⟩ := follow?_index_eq_some.mp hslot
      obtain ⟨hi, hitem⟩ := List.getElem?_eq_some_iff.mp hget
      have hsorted : slot.Sorted := Json.SortedItems.of_mem hd (List.mem_of_getElem? hget)
      refine write_index_eq_ok.mpr ⟨items, slot, slot, rfl, hget, ih hsorted hrest, ?_⟩
      rw [← hitem, List.set_getElem_self]
    | wildcard => cases hslot

/-- What is found at a place that parts from the written one is found there again. -/
theorem find?_write_of_diverge {other : List Segment} (h : write text v segments d = .ok d')
    (hdiverge : Diverge segments other) (hfound : find? other d = some w) :
    find? other d' = some w := by
  induction segments generalizing d d' other with
  | nil => exact absurd (List.nil_prefix ..) hdiverge.1
  | cons s rest ih =>
    obtain ⟨t, more, rfl⟩ := List.exists_cons_of_ne_nil hdiverge.ne_nil
    obtain ⟨slot, hslot, hmore⟩ := find?_cons_eq_some.mp hfound
    refine find?_cons_eq_some.mpr ?_
    cases s with
    | field name =>
      obtain ⟨fields, written, rfl, hwritten, rfl⟩ := write_field_eq_ok.mp h
      cases t with
      | field name' =>
        have hslot : Fields.get? name' fields = some slot := hslot
        by_cases hname : name' = name
        · subst hname
          -- Both paths go on in the slot, so it is no scalar that the write replaces.
          have hdiverge := diverge_cons_self.mp hdiverge
          have hslotScalar := isScalar_of_find? hmore hdiverge.ne_nil
          rw [hslot, Option.getD_some, opened_of_container hslotScalar] at hwritten
          exact ⟨written, Fields.get?_insert_self .., ih hwritten hdiverge hmore⟩
        · exact ⟨slot, (Fields.get?_insert_of_ne hname ..).trans hslot, hmore⟩
      | _ => cases hslot
    | index i =>
      obtain ⟨items, slot', written, rfl, hslot', hwritten, rfl⟩ := write_index_eq_ok.mp h
      cases t with
      | index j =>
        have hslot : items[j]? = some slot := hslot
        by_cases hj : i = j
        · subst hj
          obtain rfl : slot' = slot := Option.some.inj (hslot'.symm.trans hslot)
          obtain ⟨hi, -⟩ := List.getElem?_eq_some_iff.mp hslot
          exact ⟨written, List.getElem?_set_self hi,
            ih hwritten (diverge_cons_self.mp hdiverge) hmore⟩
        · exact ⟨slot, (List.getElem?_set_ne hj).trans hslot, hmore⟩
      | _ => cases hslot
    | wildcard => cases h

/-! ## The laws on texts -/

variable {p q : Path} {docs : Documents}

theorem resolve_eq_ok_iff (hp : parse text = .ok p) (href : p.IsReference) :
    resolve text docs = .ok v ↔ find? p.segments docs.input = some v := by
  have hlookup : p.lookup? docs = find? p.segments docs.input := by
    rw [lookup?, href.1]
    exact if_neg (by rw [href.2]; exact Bool.false_ne_true)
  simp only [resolve, hp, bind, Except.bind, hlookup]
  cases find? p.segments docs.input <;> simp

theorem set_eq_write (hp : parse text = .ok p) (href : p.IsReference) (d v : Json) :
    set d text v =
      write text v p.segments (if startsFresh p.segments d then .empty else d) := by
  rw [set, hp]
  show (if p.root = .context then _ else if p.hasWildcard then _ else _) = _
  rw [href.1, href.2, if_neg nofun, if_neg Bool.false_ne_true]

theorem startsFresh_of_isObject (h : d.isObject = true) : startsFresh segments d = false := by
  cases segments with
  | nil => rfl
  | cons s rest => cases s <;> simp [startsFresh, h]

theorem startsFresh_of_write (h : write text v segments d = .ok d') :
    startsFresh segments d' = false := by
  cases segments with
  | nil => rfl
  | cons s rest =>
    cases s with
    | field name =>
      obtain ⟨fields, written, -, -, rfl⟩ := write_field_eq_ok.mp h
      rfl
    | _ => rfl

theorem startsFresh_of_find? (h : find? segments d = some v) : startsFresh segments d = false := by
  cases segments with
  | nil => rfl
  | cons s rest =>
    obtain ⟨slot, hslot, -⟩ := find?_cons_eq_some.mp h
    cases s with
    | field name => cases d <;> first | rfl | cases hslot
    | _ => rfl

theorem startsFresh_of_kept (h : d.isObject = true ∨ ∃ i rest, segments = .index i :: rest) :
    startsFresh segments d = false := by
  rcases h with hobject | ⟨i, rest, rfl⟩
  · exact startsFresh_of_isObject hobject
  · rfl

/-- The document is the target with the value at the end of the path: for a path of no segments it
is the value, and else what the target has beside the path is still there, unless a field is written
into what is no object. -/
structure WrittenAt (p : Path) (target value document : Json) : Prop where
  reference : p.IsReference
  root : p.segments = [] → document = value
  found : find? p.segments document = some value
  kept : target.isObject = true ∨ (∃ i rest, p.segments = .index i :: rest) →
    ∀ other w, Diverge p.segments other → find? other target = some w →
      find? other document = some w

/-- Writing at a reference path and reading there form a lens: a written value is read back and the
last write counts, the value that is read is written without a change, and a value at a path that
parts from the written one stays, unless the target gives way as a whole. -/
theorem set_lens (hp : parse text = .ok p) (href : p.IsReference) (d context : Json) :
    (∀ v d', set d text v = .ok d' →
      resolve text ⟨d', context⟩ = .ok v ∧ ∀ w, set d' text w = set d text w) ∧
    (d.Sorted → ∀ v, resolve text ⟨d, context⟩ = .ok v → set d text v = .ok d) ∧
    ∀ v d', set d text v = .ok d' →
      d.isObject = true ∨ (∃ i rest, p.segments = .index i :: rest) →
      ∀ other q, parse other = .ok q → q.IsReference → Diverge p.segments q.segments →
      ∀ x, resolve other ⟨d, context⟩ = .ok x → resolve other ⟨d', context⟩ = .ok x := by
  simp only [set_eq_write hp href, resolve_eq_ok_iff hp href]
  refine ⟨fun v d' h => ⟨find?_write h, fun w => ?_⟩, fun hd v h => ?_,
    fun v d' h hstart other q hq hqref hdiverge x hx => ?_⟩
  · rw [startsFresh_of_write h]
    exact write_write h w
  · rw [startsFresh_of_find? h]
    exact write_of_find? hd h text
  · rw [startsFresh_of_kept hstart] at h
    rw [resolve_eq_ok_iff hq hqref] at hx ⊢
    exact find?_write_of_diverge h hdiverge hx

def order (first second : String) : Json :=
  .obj [("id", .num (.int 7)), ("lines", .arr [.str first, .str second])]

theorem set_lens_order : parse "$.lines[1]" = .ok ⟨.data, [.field "lines", .index 1]⟩ ∧
    (order "pen" "ink").Sorted ∧
    set (order "pen" "ink") "$.lines[1]" (.str "cap") = .ok (order "pen" "cap") ∧
    resolve "$.lines[1]" ⟨order "pen" "cap", .null⟩ = .ok (.str "cap") ∧
    set (order "pen" "cap") "$.lines[1]" .null = set (order "pen" "ink") "$.lines[1]" .null ∧
    set (order "pen" "ink") "$.lines[1]" (.str "ink") = .ok (order "pen" "ink") ∧
    resolve "$['lines'][0]" ⟨order "pen" "cap", .null⟩ = .ok (.str "pen") := by
  have hp : parse "$.lines[1]" = .ok ⟨.data, [.field "lines", .index 1]⟩ := by
    have hindex : bracketSegment ['1'] = .ok (.index 1) := rfl
    simp [parse, readSegments, namedSegment, isFieldChar, hindex]
    rfl
  have hq : parse "$['lines'][0]" = .ok ⟨.data, [.field "lines", .index 0]⟩ := by
    have hindex : bracketSegment ['0'] = .ok (.index 0) := rfl
    simp [parse, readSegments, hindex]
    rfl
  have hsorted : (order "pen" "ink").Sorted := by
    simp only [order, Json.Sorted, Json.SortedFields, Json.SortedItems]
    decide
  have href : ∀ i, IsReference ⟨.data, [.field "lines", .index i]⟩ := fun i => ⟨rfl, rfl⟩
  have hset : set (order "pen" "ink") "$.lines[1]" (.str "cap") = .ok (order "pen" "cap") := by
    rw [set_eq_write hp (href 1)]
    rfl
  obtain ⟨hwritten, hkept, hapart⟩ := set_lens hp (href 1) (order "pen" "ink") .null
  obtain ⟨hread, hlast⟩ := hwritten _ _ hset
  exact ⟨hp, hsorted, hset, hread, hlast _,
    hkept hsorted _ ((resolve_eq_ok_iff hp (href 1)).mpr rfl),
    hapart _ _ hset (.inl rfl) _ _ hq (href 0) (by simp [Diverge]) _
      ((resolve_eq_ok_iff hq (href 0)).mpr rfl)⟩

end Path
end StateCheck
