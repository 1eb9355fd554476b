/-!
Sets of names, kept in increasing order without repetition.

`NameSet.toList` is the view of a set: membership, union and difference are stated on it.
-/
namespace StateCheck
set_option autoImplicit false

structure NameSet where
  toList : List String
  sorted : toList.Pairwise (· < ·)

namespace NameSet

theorem lt_of_not_lt {a b : String} (h : ¬a < b) (ne : a ≠ b) : b < a :=
  Classical.byContradiction fun h' =>
    ne (String.le_antisymm (String.not_lt.mp h') (String.not_lt.mp h))

/-- A list with a name at its sorted place. -/
def place (name : String) : List String → List String
  | [] => [name]
  | n :: rest =>
    if name = n then n :: rest else if name < n then name :: n :: rest else n :: place name rest

theorem mem_place {name x : String} {names : List String} :
    x ∈ place name names ↔ x = name ∨ x ∈ names := by
  induction names with
  | nil => simp [place]
  | cons n rest ih =>
    simp only [place]
    split
    · rename_i h; subst h; simp
    · split
      · simp
      · simp only [List.mem_cons, ih]
        constructor
        · rintro (h | h | h) <;> simp [h]
        · rintro (h | h | h) <;> simp [h]

theorem place_sorted {name : String} {names : List String} (h : names.Pairwise (· < ·)) :
    (place name names).Pairwise (· < ·) := by
  induction names with
  | nil => simp [place]
  | cons n rest ih =>
    have hrest := List.pairwise_cons.mp h
    simp only [place]
    split
    · exact h
    · split
      · rename_i hlt
        refine List.pairwise_cons.mpr ⟨fun x hx => ?_, h⟩
        rcases List.mem_cons.mp hx with rfl | hx
        · exact hlt
        · exact String.lt_trans hlt (hrest.1 x hx)
      · rename_i hne hlt
        refine List.pairwise_cons.mpr ⟨fun x hx => ?_, ih hrest.2⟩
        rcases mem_place.mp hx with rfl | hx
        · exact lt_of_not_lt hlt hne
        · exact hrest.1 x hx

def empty : NameSet := ⟨[], .nil⟩

instance : Inhabited NameSet := ⟨empty⟩

def insert (s : NameSet) (name : String) : NameSet := ⟨place name s.toList, place_sorted s.sorted⟩

instance : Membership String NameSet := ⟨fun s name => name ∈ s.toList⟩

instance (s : NameSet) (name : String) : Decidable (name ∈ s) :=
  inferInstanceAs (Decidable (name ∈ s.toList))

@[simp] theorem mem_insert {s : NameSet} {name x : String} :
    x ∈ s.insert name ↔ x = name ∨ x ∈ s := mem_place

def insertAll (s : NameSet) (names : List String) : NameSet := names.foldl insert s

def union (a b : NameSet) : NameSet := a.insertAll b.toList

def size (s : NameSet) : Nat := s.toList.length

def diff (a b : NameSet) : List String := a.toList.filter fun name => decide (name ∉ b)

end NameSet
end StateCheck
