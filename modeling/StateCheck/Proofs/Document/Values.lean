import StateCheck.Document.Record
import StateCheck.Proofs.Json.Sorted
/-!
Values as documents.

A sorted value that stands as a document is read back as it is (`Node.toJson?_ofJson`), and a record
is read with exactly the known fields that are written (`Node.lookup_of_record?`). A field that may
be left out or null has a value when it is there and not null (`Record.optional_eq_mapM`). Of the
items of a list the first one with a property is read as the first one that has the property once it
is read (`Fit.find?_list`).
-/
namespace StateCheck
set_option autoImplicit false

namespace Node

/-! ## Reading back -/

mutual
theorem toJson?_ofJson : (v : Json) → v.Sorted → (ofJson v).toJson? = some v
  | .null, _ => rfl
  | .bool b, _ => rfl
  | .num n, _ => rfl
  | .str s, _ => rfl
  | .arr items, h => by
    simp only [Json.Sorted] at h
    rw [ofJson, toJson?, itemsJson?_itemsOf items h]
    rfl
  | .obj fields, h => by
    simp only [Json.Sorted] at h
    rw [ofJson, toJson?, entriesJson?_entriesOf fields h.2, Option.map_some, Json.object,
      Fields.ofList_of_sorted h.1]

theorem itemsJson?_itemsOf : (items : List Json) → Json.SortedItems items →
    itemsJson? (itemsOf items) = some items
  | [], _ => rfl
  | v :: rest, h => by
    simp only [Json.SortedItems] at h
    rw [itemsOf, itemsJson?, toJson?_ofJson v h.1, itemsJson?_itemsOf rest h.2]
    rfl

theorem entriesJson?_entriesOf : (fields : Fields) → Json.SortedFields fields →
    entriesJson? (entriesOf fields) = some fields
  | [], _ => rfl
  | (key, v) :: rest, h => by
    simp only [Json.SortedFields] at h
    rw [entriesOf, entriesJson?, toJson?_ofJson v h.1, entriesJson?_entriesOf rest h.2]
    rfl
end

theorem itemsOf_eq_map (items : List Json) : itemsOf items = items.map ofJson := by
  induction items with
  | nil => rfl
  | cons v rest ih => rw [itemsOf, ih, List.map_cons]

mutual
theorem settled?_ofJson : (v : Json) → (ofJson v).settled? = some (ofJson v)
  | .null => rfl
  | .bool _ => rfl
  | .num _ => rfl
  | .str _ => rfl
  | .arr items => by
    rw [ofJson, settled?, settledItems?_itemsOf items]
    rfl
  | .obj fields => by
    rw [ofJson, settled?, settledEntries?_entriesOf fields]
    rfl

theorem settledItems?_itemsOf : (items : List Json) →
    settledItems? (itemsOf items) = some (itemsOf items)
  | [] => rfl
  | v :: rest => by
    rw [itemsOf, settledItems?, settled?_ofJson v, settledItems?_itemsOf rest]
    rfl

theorem settledEntries?_entriesOf : (fields : Fields) →
    settledEntries? (entriesOf fields) = some (entriesOf fields)
  | [] => rfl
  | (key, v) :: rest => by
    rw [entriesOf, settledEntries?, settled?_ofJson v, settledEntries?_entriesOf rest]
    rfl
end

/-! ## Records -/

theorem lookup_knownFields? {names : List String} {fields : Fields} {found r : Record}
    (h : knownFields? names found (entriesOf fields) = some r) {name : String}
    (hname : name ∈ names) :
    r.lookup name = (found.reverse.lookup name).or ((Fields.get? name fields).map ofJson) := by
  induction fields generalizing found with
  | nil =>
    obtain rfl := Option.some.inj h
    rw [Fields.get?, Option.map_none, Option.or_none]
  | cons entry rest ih =>
    obtain ⟨key, v⟩ := entry
    rw [entriesOf, knownFields?] at h
    simp only [text?, Option.bind_eq_bind, Option.bind_some] at h
    by_cases hkey : names.contains key = true
    · simp only [hkey, Bool.not_true, Bool.false_eq_true, if_false] at h
      split at h
      · cases h
      · rw [ih h, List.reverse_cons, List.lookup_append, Option.or_assoc, Fields.get?,
          List.lookup_cons]
        by_cases heq : key = name
        · simp [heq]
        · have hne : (name == key) = false := by simpa using fun e => heq e.symm
          simp [heq, hne]
    · have hne : key ≠ name := by
        rintro rfl
        exact hkey (List.contains_iff_mem.mpr hname)
      simp only [Bool.not_eq_true] at hkey
      simp only [hkey, Bool.not_false, if_true] at h
      rw [ih h, Fields.get?, if_neg hne]

theorem lookup_record? {names : List String} {doc : Json} (hdoc : doc.isObject = true) {r : Record}
    (h : (ofJson doc).record? names = some r) {name : String} (hname : name ∈ names) :
    r.lookup name = (doc.get? name).map ofJson := by
  cases doc with
  | obj fields =>
    rw [ofJson, record?] at h
    rw [lookup_knownFields? h hname]
    rfl
  | _ => cases hdoc

theorem lookup_zip_itemsOf (names : List String) (items : List Json) (name : String) :
    (names.zip (itemsOf items)).lookup name = ((names.zip items).lookup name).map ofJson := by
  induction names generalizing items with
  | nil => rfl
  | cons first rest ih =>
    cases items with
    | nil => rfl
    | cons v more =>
      rw [itemsOf, List.zip_cons_cons, List.zip_cons_cons, List.lookup_cons, List.lookup_cons, ih]
      cases name == first <;> rfl

end Node

namespace Json

/-- A field of a record that is written with its keys, or as the list of its fields in order. -/
def field? (names : List String) (name : String) : Json → Option Json
  | .obj fields => Fields.get? name fields
  | .arr items => (names.zip items).lookup name
  | _ => none

theorem Sorted.field? {v w : Json} {names : List String} {name : String} (h : v.Sorted)
    (hw : v.field? names name = some w) : w.Sorted := by
  cases v with
  | obj fields => exact h.get? hw
  | arr items =>
    obtain ⟨n, hmem⟩ : ∃ n, (n, w) ∈ names.zip items := by
      rw [Json.field?, List.lookup_eq_some_iff] at hw
      obtain ⟨before, after, hsplit, -⟩ := hw
      exact ⟨name, by simp [hsplit]⟩
    exact h.of_item (List.of_mem_zip hmem).2
  | _ => cases hw

end Json

theorem Node.lookup_of_record? {names : List String} {doc : Json} {r : Record}
    (h : (ofJson doc).record? names = some r) {name : String} (hname : name ∈ names) :
    r.lookup name = (doc.field? names name).map ofJson := by
  cases doc with
  | obj fields => exact lookup_record? rfl h hname
  | arr items =>
    rw [ofJson, record?] at h
    split at h
    · cases h
      exact lookup_zip_itemsOf names items name
    · cases h
  | _ => cases h

theorem Json.isObject_of_get? {v w : Json} {key : String} (h : v.get? key = some w) :
    v.isObject = true := by
  cases v with
  | obj fields => rfl
  | _ => cases h

namespace Fit

variable {α : Type}

theorem value_ofJson {v : Json} (h : v.Sorted) : value (Node.ofJson v) = some v :=
  Node.toJson?_ofJson v h

theorem text_ofJson (v : Json) : text (Node.ofJson v) = v.asString? := by
  cases v <;> rfl

theorem optional_ofJson (fit : Fit α) {v : Json} (h : v.isNull = false) :
    optional fit (Node.ofJson v) = (fit (Node.ofJson v)).map some := by
  cases v with
  | null => cases h
  | _ => rfl

theorem exists_of_mem_mapM {item : Fit α} {nodes : List Node} {read : List α}
    (h : nodes.mapM item = some read) {n : Node} (hn : n ∈ nodes) :
    ∃ a ∈ read, item n = some a := by
  induction nodes generalizing read with
  | nil => cases hn
  | cons first rest ih =>
    rw [List.mapM_cons] at h
    obtain ⟨a, ha, h⟩ := Option.bind_eq_some_iff.mp h
    obtain ⟨more, hmore, h⟩ := Option.bind_eq_some_iff.mp h
    cases h
    rcases List.mem_cons.mp hn with rfl | hn
    · exact ⟨a, List.mem_cons_self .., ha⟩
    · obtain ⟨b, hb, hitem⟩ := ih hmore hn
      exact ⟨b, List.mem_cons_of_mem _ hb, hitem⟩

theorem exists_of_mem_list {item : Fit α} {entries : List Json} {read : List α}
    (h : list item (Node.ofJson (.arr entries)) = some read) {entry : Json}
    (hentry : entry ∈ entries) : ∃ a ∈ read, item (Node.ofJson entry) = some a := by
  rw [Node.ofJson, list, Node.itemsOf_eq_map] at h
  exact exists_of_mem_mapM h (List.mem_map_of_mem hentry)

theorem exists_arr_of_list {item : Fit α} {v : Json} {read : List α}
    (h : list item (Node.ofJson v) = some read) : ∃ entries, v = .arr entries := by
  cases v with
  | arr entries => exact ⟨entries, rfl⟩
  | _ => cases h

/-- Searching a list and reading what is found, and searching what the list is read as, come to the
same. -/
theorem find?_list {item : Fit α} {p : Json → Bool} {q : α → Bool} {entries : List Json}
    {read : List α} (h : list item (Node.ofJson (.arr entries)) = some read)
    (hpq : ∀ entry ∈ entries, ∀ a, item (Node.ofJson entry) = some a → p entry = q a) :
    ((entries.find? p).mapM fun entry => item (Node.ofJson entry)) = some (read.find? q) := by
  rw [Node.ofJson, list] at h
  induction entries generalizing read with
  | nil =>
    cases h
    rfl
  | cons entry rest ih =>
    rw [Node.itemsOf, List.mapM_cons] at h
    obtain ⟨a, ha, h⟩ := Option.bind_eq_some_iff.mp h
    obtain ⟨more, hmore, h⟩ := Option.bind_eq_some_iff.mp h
    cases h
    rw [List.find?_cons, List.find?_cons, hpq entry (List.mem_cons_self ..) a ha]
    cases q a with
    | true =>
      dsimp only
      rw [Option.mapM_some, ha]
      rfl
    | false => exact ih hmore fun e he => hpq e (List.mem_cons_of_mem _ he)

end Fit

namespace Record

/-- A field that may be left out is read if it has a value; a null counts as left out. -/
theorem optional_eq_mapM {α : Type} {r : Record} {name : String} {written : Option Json}
    (hlookup : r.lookup name = written.map Node.ofJson) (fit : Fit α) :
    r.optional name fit =
      (written.filter fun v => !v.isNull).mapM fun v => fit (Node.ofJson v) := by
  rw [optional, defaulted, hlookup]
  cases written with
  | none => rfl
  | some v =>
    cases v with
    | null => rfl
    | _ => exact Fit.optional_ofJson fit rfl

theorem required_text {r : Record} {name : String} {written : Option Json}
    (hlookup : r.lookup name = written.map Node.ofJson) :
    r.required name Fit.text = written.bind Json.asString? := by
  rw [required, hlookup]
  cases written with
  | none => rfl
  | some v => exact Fit.text_ofJson v

theorem optional_text {r : Record} {name : String} {written : Option Json} {read : Option String}
    (hlookup : r.lookup name = written.map Node.ofJson)
    (h : r.optional name Fit.text = some read) : read = written.bind Json.asString? := by
  rw [optional_eq_mapM hlookup] at h
  cases written with
  | none => exact (Option.some.inj h).symm
  | some v =>
    cases v with
    | null => exact (Option.some.inj h).symm
    | str s => exact (Option.some.inj h).symm
    | _ => cases h

theorem optional_value {r : Record} {name : String} {written expected : Option Json}
    (hsorted : ∀ v, written = some v → v.Sorted)
    (hlookup : r.lookup name = written.map Node.ofJson)
    (h : r.optional name Fit.value = some expected) :
    expected = written.filter fun v => !v.isNull := by
  rw [optional_eq_mapM hlookup] at h
  cases hgiven : written.filter fun v => !v.isNull with
  | none =>
    rw [hgiven] at h
    exact (Option.some.inj h).symm
  | some v =>
    have hv : v.Sorted := hsorted v (Option.eq_some_of_filter_eq_some hgiven)
    rw [hgiven, Option.mapM_some, Fit.value_ofJson hv] at h
    exact (Option.some.inj h).symm

end Record
end StateCheck
