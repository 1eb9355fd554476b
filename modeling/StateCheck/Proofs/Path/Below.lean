import StateCheck.Proofs.Path.Write
/-!
Writing below a value.

A write that goes through an object or array writes the part first and then puts it in its place
(`Path.write_append`). A scalar that a field leads to, or that is the whole of the data, gives way
to objects when fields below it are written; an item of an array does not (`Path.set_below_scalar`).
-/
namespace StateCheck
set_option autoImplicit false

namespace Path

variable {text below : String} {front rest segments : List Segment} {names : List String}
  {v w d d' parent slot : Json}

/-! ## Through a container -/

theorem container_of_find? (hfind : find? segments d = some parent)
    (hparent : parent.isScalar = false) : d.isScalar = false := by
  by_cases hsegments : segments = []
  · subst hsegments
    cases hfind
    exact hparent
  · exact isScalar_of_find? hfind hsegments

theorem write_append (hfind : find? front d = some parent) (hparent : parent.isScalar = false)
    (text : String) (v : Json) (rest : List Segment) :
    write text v (front ++ rest) d =
      write text v rest parent >>= fun part => write text part front d := by
  induction front generalizing d with
  | nil =>
    cases hfind
    exact (bind_pure _).symm
  | cons s front ih =>
    obtain ⟨slot, hslot, hfront⟩ := find?_cons_eq_some.mp hfind
    have hcontainer := container_of_find? hfront hparent
    cases s with
    | field name =>
      obtain ⟨fields, rfl, hget⟩ := follow?_field_eq_some.mp hslot
      simp only [List.cons_append, write_obj, hget, Option.getD_some,
        opened_of_container hcontainer, ih hfront, bind_assoc]
    | index i =>
      obtain ⟨items, rfl, hget⟩ := follow?_index_eq_some.mp hslot
      simp only [List.cons_append, write_arr, hget, Option.elim_some, ih hfront, bind_assoc]
    | wildcard => cases hslot

theorem exists_write_of_find? (h : find? segments d = some v) (w : Json) :
    ∃ d', ∀ text, write text w segments d = .ok d' := by
  induction segments generalizing d with
  | nil => exact ⟨w, fun _ => rfl⟩
  | cons s rest ih =>
    obtain ⟨slot, hslot, hrest⟩ := find?_cons_eq_some.mp h
    obtain ⟨written, hwritten⟩ := ih hrest
    cases s with
    | field name =>
      obtain ⟨fields, rfl, hget⟩ := follow?_field_eq_some.mp hslot
      refine ⟨.obj (Fields.insert name written fields), fun text => ?_⟩
      refine write_field_eq_ok.mpr ⟨fields, written, rfl, ?_, rfl⟩
      rw [hget, Option.getD_some, opened_of_find? hrest]
      exact hwritten text
    | index i =>
      obtain ⟨items, rfl, hget⟩ := follow?_index_eq_some.mp hslot
      exact ⟨.arr (items.set i written), fun text =>
        write_index_eq_ok.mpr ⟨items, slot, written, rfl, hget, hwritten text, rfl⟩⟩
    | wildcard => cases hslot

/-! ## Fields below a scalar -/

/-- Objects of one field each, one inside the other, around a value. -/
def nested (names : List String) (v : Json) : Json :=
  names.foldr (fun name inner => .obj [(name, inner)]) v

def fields (names : List String) : List Segment := names.map .field

theorem write_fields_empty (text : String) (v : Json) (names : List String) :
    write text v (fields names) .empty = .ok (nested names v) := by
  induction names with
  | nil => rfl
  | cons name names ih =>
    refine write_field_eq_ok.mpr ⟨[], nested names v, rfl, ?_, rfl⟩
    show write text v (fields names) (opened (fields names) .empty) = _
    rw [opened_of_container rfl, ih]

theorem write_fields_opened (text : String) (v : Json) (names : List String)
    (hslot : slot.isScalar = true) :
    write text v (fields names) (opened (fields names) slot) = .ok (nested names v) := by
  cases names with
  | nil => rfl
  | cons name names =>
    have hopened : opened (fields (name :: names)) slot = .empty := by
      simp only [opened, fields, List.map_cons, List.isEmpty_cons, Bool.not_false, Bool.true_and]
      exact if_pos hslot
    rw [hopened, write_fields_empty]

theorem write_field_below (text : String) (v : Json) (names : List String) {name : String}
    {entries : Fields} (hget : Fields.get? name entries = some slot)
    (hslot : slot.isScalar = true) :
    write text v (.field name :: fields names) (.obj entries) =
      .ok (.obj (Fields.insert name (nested names v) entries)) := by
  refine write_field_eq_ok.mpr ⟨entries, nested names v, rfl, ?_, rfl⟩
  rw [hget, Option.getD_some, write_fields_opened text v names hslot]

theorem find?_concat_eq_some {last : Segment} : find? (front ++ [last]) d = some slot ↔
    ∃ parent, find? front d = some parent ∧ last.follow? parent = some slot := by
  induction front generalizing d with
  | nil => simp [find?]
  | cons s front ih =>
    rw [List.cons_append, find?, find?, Option.bind_eq_some_iff]
    simp only [ih, Option.bind_eq_some_iff]
    grind

/-- Below a field with a scalar the whole of the objects can as well be written at the field. -/
theorem write_below_field {name : String} (hfind : find? (front ++ [.field name]) d = some slot)
    (hslot : slot.isScalar = true) (text below : String) (v : Json) (names : List String) :
    ∃ d', write below v (front ++ [.field name] ++ fields names) d = .ok d' ∧
      write text (nested names v) (front ++ [.field name]) d = .ok d' := by
  obtain ⟨parent, hfront, hparent⟩ := find?_concat_eq_some.mp hfind
  obtain ⟨entries, rfl, hget⟩ := follow?_field_eq_some.mp hparent
  obtain ⟨d', hd'⟩ := exists_write_of_find? hfront
    (.obj (Fields.insert name (nested names v) entries))
  refine ⟨d', ?_, ?_⟩
  · rw [List.append_assoc, write_append hfront rfl, List.singleton_append,
      write_field_below below v names hget hslot]
    exact hd' below
  · have hwhole := write_field_below text (nested names v) [] hget hslot
    rw [write_append hfront rfl, show [Segment.field name] = .field name :: fields [] from rfl,
      hwhole]
    exact hd' text

theorem write_below_index {i : Nat} (hfind : find? (front ++ [.index i]) d = some slot)
    (hslot : slot.isScalar = true) (text : String) (v : Json) (name : String)
    (names : List String) :
    write text v (front ++ [.index i] ++ fields (name :: names)) d =
      .error (.typeError (.parentNotObject name text)) := by
  obtain ⟨parent, hfront, hparent⟩ := find?_concat_eq_some.mp hfind
  obtain ⟨items, rfl, hget⟩ := follow?_index_eq_some.mp hparent
  have hrefused : write text v (fields (name :: names)) slot =
      .error (.typeError (.parentNotObject name text)) := by
    cases slot <;> first | rfl | cases hslot
  rw [List.append_assoc, write_append hfront rfl, List.singleton_append, write_arr, hget,
    Option.elim_some, hrefused]
  rfl

theorem write_fields_fresh (text : String) (v : Json) (names : List String)
    (hd : d.isScalar = true) :
    write text v (fields names) (if startsFresh (fields names) d then .empty else d) =
      .ok (nested names v) := by
  cases names with
  | nil => rfl
  | cons name names =>
    have hfresh : startsFresh (fields (name :: names)) d = true := (Bool.and_eq_true_iff.mp hd).1
    rw [if_pos hfresh, write_fields_empty]

/-! ## On texts -/

theorem IsReference.append_fields {p : Path} (href : p.IsReference) (names : List String) :
    IsReference ⟨p.root, p.segments ++ fields names⟩ := by
  have hfields : (fields names).any Segment.isWildcard = false := by
    rw [fields, List.any_map]
    exact List.any_eq_false.mpr fun _ _ => Bool.false_ne_true
  refine ⟨href.1, ?_⟩
  rw [hasWildcard, List.any_append, hfields, Bool.or_false]
  exact href.2

theorem startsFresh_append_of_find? (hsegments : segments ≠ [])
    (hfind : find? segments d = some slot) (rest : List Segment) :
    startsFresh (segments ++ rest) d = false := by
  rw [← startsFresh_of_find? hfind]
  obtain ⟨s, front, rfl⟩ := List.exists_cons_of_ne_nil hsegments
  cases s <;> rfl

/-- Fields below a scalar are written as objects in its place if it is the whole target or the value
of a field. If it is an item of an array they are refused. -/
theorem set_below_scalar {p : Path} {context s : Json} (hp : parse text = .ok p)
    (href : p.IsReference) (hs : resolve text ⟨d, context⟩ = .ok s) (hscalar : s.isScalar = true)
    (hbelow : parse below = .ok ⟨p.root, p.segments ++ fields names⟩) (v : Json) :
    ((∀ i, p.segments.getLast? ≠ some (.index i)) →
      ∃ d', set d below v = .ok d' ∧ set d text (nested names v) = .ok d') ∧
    ∀ i name, p.segments.getLast? = some (.index i) → names.head? = some name →
      set d below v = .error (.typeError (.parentNotObject name below)) := by
  have hfind : find? p.segments d = some s := (resolve_eq_ok_iff hp href).mp hs
  rw [set_eq_write hbelow (href.append_fields names), set_eq_write hp href]
  dsimp only
  rcases List.eq_nil_or_concat' p.segments with hnil | ⟨front, last, hconcat⟩
  · -- The scalar is the whole target.
    rw [hnil] at hfind ⊢
    cases hfind
    exact ⟨fun _ => ⟨_, write_fields_fresh below v names hscalar, rfl⟩, nofun⟩
  · rw [hconcat] at hfind ⊢
    rw [startsFresh_append_of_find? (by simp) hfind, startsFresh_of_find? hfind,
      List.getLast?_concat]
    cases last with
    | field name =>
      exact ⟨fun _ => write_below_field hfind hscalar text below v names, nofun⟩
    | index i =>
      refine ⟨fun h => absurd rfl (h i), fun _ name _ hname => ?_⟩
      obtain ⟨more, rfl⟩ := List.head?_eq_some_iff.mp hname
      exact write_below_index hfind hscalar below v name more
    | wildcard =>
      obtain ⟨parent, -, hlast⟩ := find?_concat_eq_some.mp hfind
      cases hlast

theorem set_below_scalar_name :
    parse "$.user.name" = .ok ⟨.data, [.field "user", .field "name"]⟩ ∧
    parse "$.user.name.given['first']" =
      .ok ⟨.data, [.field "user", .field "name"] ++ fields ["given", "first"]⟩ ∧
    ∃ d', set (.obj [("user", .obj [("name", .str "Ada")])]) "$.user.name.given['first']" .null =
        .ok d' ∧
      set (.obj [("user", .obj [("name", .str "Ada")])]) "$.user.name"
        (.obj [("given", .obj [("first", .null)])]) = .ok d' := by
  have hp : parse "$.user.name" = .ok ⟨.data, [.field "user", .field "name"]⟩ := by
    simp [parse, readSegments, namedSegment, isFieldChar]
    rfl
  have hbelow : parse "$.user.name.given['first']" =
      .ok ⟨.data, [.field "user", .field "name"] ++ fields ["given", "first"]⟩ := by
    have hquoted : bracketSegment ['\'', 'f', 'i', 'r', 's', 't', '\''] =
      .ok (.field "first") := rfl
    simp [parse, readSegments, namedSegment, isFieldChar, hquoted]
    rfl
  have href : IsReference ⟨.data, [.field "user", .field "name"]⟩ := ⟨rfl, rfl⟩
  have hs : resolve "$.user.name" ⟨.obj [("user", .obj [("name", .str "Ada")])], .null⟩ =
      .ok (.str "Ada") := (resolve_eq_ok_iff hp href).mpr rfl
  refine ⟨hp, hbelow, (set_below_scalar hp href hs rfl hbelow .null).1 fun i h => ?_⟩
  cases h

/-- An item of an array that is a scalar does not give way: the object can be written in its place,
and its field cannot be written below it. -/
theorem set_below_item_refused :
    resolve "$.list[0]" ⟨.obj [("list", .arr [.num (.int 1)])], .null⟩ = .ok (.num (.int 1)) ∧
    set (.obj [("list", .arr [.num (.int 1)])]) "$.list[0]" (nested ["x"] (.bool true)) =
      .ok (.obj [("list", .arr [.obj [("x", .bool true)]])]) ∧
    set (.obj [("list", .arr [.num (.int 1)])]) "$.list[0].x" (.bool true) =
      .error (.typeError (.parentNotObject "x" "$.list[0].x")) := by
  have hindex : bracketSegment ['0'] = .ok (.index 0) := rfl
  have hp : parse "$.list[0]" = .ok ⟨.data, [.field "list", .index 0]⟩ := by
    simp [parse, readSegments, namedSegment, isFieldChar, hindex]
    rfl
  have hbelow : parse "$.list[0].x" = .ok ⟨.data, [.field "list", .index 0, .field "x"]⟩ := by
    simp [parse, readSegments, namedSegment, isFieldChar, hindex]
    rfl
  refine ⟨(resolve_eq_ok_iff hp ⟨rfl, rfl⟩).mpr rfl, ?_, ?_⟩
  · rw [set_eq_write hp ⟨rfl, rfl⟩]
    rfl
  · rw [set_eq_write hbelow ⟨rfl, rfl⟩]
    rfl

end Path
end StateCheck
