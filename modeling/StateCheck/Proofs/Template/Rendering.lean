import StateCheck.Proofs.Intrinsic.Calls
import StateCheck.Proofs.Json.Sorted
import StateCheck.Template
/-!
What rendering a template gives.

The dynamic entries of a template, in the order in which they are come upon, are its slots.
Rendering evaluates them one after the other, each from the source of drawn values that the one
before left, and ends with the first that fails; the result is the template with their values
filled in (`Template.render_reading`). Two relations say what this means: `Evaluated` and `Fails` of
slots alone, and `Filled` of the template alone.
-/
namespace StateCheck
set_option autoImplicit false

theorem Intrinsic.bind_of_error {α β : Type} {x : Eval α} {error : EvalError} {e : Entropy}
    (h : x e = .error error) (f : α → Eval β) : (x >>= f) e = .error error := by
  change (x e >>= fun p => f p.1 p.2) = .error error
  rw [h]
  rfl

namespace Template
open Intrinsic

/-! ## Keys -/

theorem dynamicKey?_eq_some_iff {key target : String} :
    dynamicKey? key = some target ↔ key = target ++ ".$" := by
  have hlist : key = target ++ ".$" ↔ key.toList.reverse = '$' :: '.' :: target.toList.reverse := by
    rw [← String.toList_inj, String.toList_append, ← List.reverse_inj]
    simp
  rw [hlist, dynamicKey?]
  split
  · next rest hkey =>
    rw [hkey]
    simp [← String.toList_inj, List.reverse_eq_iff]
  · next hnot =>
    simp only [reduceCtorEq, false_iff]
    exact hnot _

/-- A name stands before its dynamic entry. -/
theorem lt_dynamic (name : String) : name < name ++ ".$" := by
  have hlist : ∀ cs : List Char, cs < cs ++ ['.', '$'] := by
    intro cs
    induction cs with
    | nil => exact List.nil_lt_cons ..
    | cons c cs ih => exact List.cons_lt_cons_iff.mpr (.inr ⟨rfl, ih⟩)
  rw [String.lt_iff, String.toList_append]
  exact hlist name.toList

/-! ## Slots -/

/-- A dynamic entry: its key with the ending, and what is written as its value. -/
structure Slot where
  key : String
  written : Json

mutual
/-- The dynamic entries of a template, at any depth: entries in the order of their keys and items in
order. -/
def slots : Json → List Slot
  | .obj fields => fieldSlots fields
  | .arr items => itemSlots items
  | .null | .bool _ | .num _ | .str _ => []

def fieldSlots : List (String × Json) → List Slot
  | [] => []
  | (key, v) :: rest =>
    (match dynamicKey? key with
      | some _ => [⟨key, v⟩]
      | none => slots v) ++ fieldSlots rest

def itemSlots : List Json → List Slot
  | [] => []
  | v :: rest => slots v ++ itemSlots rest
end

/-- The value of a slot is that of its text, an intrinsic call or a path; anything but a text has
none. -/
def Slot.eval (docs : Documents) (slot : Slot) : Eval Json :=
  match slot.written with
  | .str text => dynamic text docs
  | _ => throw (.typeError (.dynamicValue slot.key))

variable {docs : Documents}

/-- The slots have values, each evaluated from the source that the one before left. -/
inductive Evaluated (docs : Documents) : List Slot → Entropy → List Json → Entropy → Prop
  | nil {e : Entropy} : Evaluated docs [] e [] e
  | cons {slot : Slot} {rest : List Slot} {e e₁ e₂ : Entropy} {v : Json} {values : List Json} :
      slot.eval docs e = .ok (v, e₁) → Evaluated docs rest e₁ values e₂ →
      Evaluated docs (slot :: rest) e (v :: values) e₂

/-- The first of the slots that has no value fails with the error. -/
inductive Fails (docs : Documents) : List Slot → Entropy → EvalError → Prop
  | here {slot : Slot} {rest : List Slot} {e : Entropy} {error : EvalError} :
      slot.eval docs e = .error error → Fails docs (slot :: rest) e error
  | later {slot : Slot} {rest : List Slot} {e e₁ : Entropy} {v : Json} {error : EvalError} :
      slot.eval docs e = .ok (v, e₁) → Fails docs rest e₁ error → Fails docs (slot :: rest) e error

theorem Evaluated.append {xs ys : List Slot} {e e₁ e₂ : Entropy} {values more : List Json}
    (h : Evaluated docs xs e values e₁) (h' : Evaluated docs ys e₁ more e₂) :
    Evaluated docs (xs ++ ys) e (values ++ more) e₂ := by
  induction h with
  | nil => exact h'
  | cons hslot _ ih => exact .cons hslot (ih h')

theorem Evaluated.fails {xs ys : List Slot} {e e₁ : Entropy} {values : List Json}
    {error : EvalError} (h : Evaluated docs xs e values e₁) (h' : Fails docs ys e₁ error) :
    Fails docs (xs ++ ys) e error := by
  induction h with
  | nil => exact h'
  | cons hslot _ ih => exact .later hslot (ih h')

theorem Fails.append {xs : List Slot} {e : Entropy} {error : EvalError} (h : Fails docs xs e error)
    (ys : List Slot) : Fails docs (xs ++ ys) e error := by
  induction h with
  | here hslot => exact .here hslot
  | later hslot _ ih => exact .later hslot ih

theorem Evaluated.unique {xs : List Slot} {e e₁ e₂ : Entropy} {values values' : List Json}
    (h : Evaluated docs xs e values e₁) (h' : Evaluated docs xs e values' e₂) :
    values' = values ∧ e₂ = e₁ := by
  induction h generalizing values' with
  | nil =>
    cases h'
    exact ⟨rfl, rfl⟩
  | cons hslot _ ih =>
    cases h' with
    | cons hslot' hrest' =>
      cases hslot.symm.trans hslot'
      obtain ⟨rfl, rfl⟩ := ih hrest'
      exact ⟨rfl, rfl⟩

theorem Evaluated.not_fails {xs : List Slot} {e e₁ : Entropy} {values : List Json}
    {error : EvalError} (h : Evaluated docs xs e values e₁) : ¬Fails docs xs e error := by
  induction h with
  | nil => exact nofun
  | cons hslot _ ih =>
    rintro (hslot' | ⟨hslot', hrest'⟩)
    · cases hslot.symm.trans hslot'
    · cases hslot.symm.trans hslot'
      exact ih hrest'

theorem Fails.unique {xs : List Slot} {e : Entropy} {error error' : EvalError}
    (h : Fails docs xs e error) (h' : Fails docs xs e error') : error' = error := by
  induction h with
  | here hslot =>
    cases h' with
    | here hslot' => cases hslot.symm.trans hslot'; rfl
    | later hslot' _ => cases hslot.symm.trans hslot'
  | later hslot _ ih =>
    cases h' with
    | here hslot' => cases hslot.symm.trans hslot'
    | later hslot' hrest' =>
      cases hslot.symm.trans hslot'
      exact ih hrest'

/-! ## Templates with values -/

def static? (key : String) (entries : Fields) : Option Json :=
  if (dynamicKey? key).isSome then none else Fields.get? key entries

/-- The object `out` has the entries of a template under their names: the value of a dynamic entry
before that of a static one of the same name. -/
structure Named (entries out : Fields) : Prop where
  sorted : out.Pairwise fun a b => a.1 < b.1
  get? : ∀ name, Fields.get? name out =
    (Fields.get? (name ++ ".$") entries).or (static? name entries)

mutual
/-- The template with the values, in order, for its slots. -/
inductive Filled : Json → List Json → Json → Prop
  | leaf {t : Json} : t.isScalar = true → Filled t [] t
  | arr {items values out : List Json} : FilledItems items values out →
      Filled (.arr items) values (.arr out)
  | obj {fields : Fields} {values : List Json} {entries out : Fields} :
      FilledFields fields values entries → Named entries out →
      Filled (.obj fields) values (.obj out)

inductive FilledItems : List Json → List Json → List Json → Prop
  | nil : FilledItems [] [] []
  | cons {t v : Json} {rest values more out : List Json} : Filled t values v →
      FilledItems rest more out → FilledItems (t :: rest) (values ++ more) (v :: out)

/-- Entries with values for their slots; here all still have the keys of the template. -/
inductive FilledFields : Fields → List Json → Fields → Prop
  | nil : FilledFields [] [] []
  | dynamic {key name : String} {t v : Json} {rest : Fields} {more : List Json} {out : Fields} :
      key = name ++ ".$" → FilledFields rest more out →
      FilledFields ((key, t) :: rest) (v :: more) ((key, v) :: out)
  | static {key : String} {t v : Json} {rest : Fields} {values more : List Json} {out : Fields} :
      dynamicKey? key = none → Filled t values v → FilledFields rest more out →
      FilledFields ((key, t) :: rest) (values ++ more) ((key, v) :: out)
end

theorem FilledFields.keys_eq {fields entries : Fields} {values : List Json} :
    FilledFields fields values entries → entries.keys = fields.keys
  | .nil => rfl
  | .dynamic _ h => congrArg (_ :: ·) h.keys_eq
  | .static _ _ h => congrArg (_ :: ·) h.keys_eq

theorem FilledFields.sorted {fields entries : Fields} {values : List Json}
    (h : FilledFields fields values entries) (hfields : fields.Pairwise fun a b => a.1 < b.1) :
    entries.Pairwise fun a b => a.1 < b.1 := by
  have hkeys := h.keys_eq
  rw [← List.pairwise_map (f := fun entry : String × Json => entry.1)] at hfields ⊢
  rwa [← Fields.keys, hkeys]

theorem Named.unique {entries out out' : Fields} (h : Named entries out)
    (h' : Named entries out') : out' = out :=
  Fields.eq_of_get? h'.sorted h.sorted fun name => (h'.get? name).trans (h.get? name).symm

/-! The values are a beginning of what is given, so that those of the first of several parts are the
same for both. -/

mutual
theorem Filled.unique {t v v' : Json} {values values' more more' : List Json} :
    Filled t values v → Filled t values' v' → values ++ more = values' ++ more' →
      values' = values ∧ v' = v
  | .leaf hscalar, h', _ => by
    cases h' with
    | leaf _ => exact ⟨rfl, rfl⟩
    | arr _ => cases hscalar
    | obj _ _ => cases hscalar
  | .arr h, h', heq => by
    cases h' with
    | leaf hscalar => cases hscalar
    | arr h' =>
      obtain ⟨rfl, rfl⟩ := h.unique h' heq
      exact ⟨rfl, rfl⟩
  | .obj h hnamed, h', heq => by
    cases h' with
    | leaf hscalar => cases hscalar
    | obj h' hnamed' =>
      obtain ⟨rfl, rfl⟩ := h.unique h' heq
      obtain rfl := hnamed.unique hnamed'
      exact ⟨rfl, rfl⟩

theorem FilledItems.unique {items out out' values values' more more' : List Json} :
    FilledItems items values out → FilledItems items values' out' →
      values ++ more = values' ++ more' → values' = values ∧ out' = out
  | .nil, h', _ => by
    cases h'
    exact ⟨rfl, rfl⟩
  | .cons h hrest, h', heq => by
    cases h' with
    | cons h' hrest' =>
      rw [List.append_assoc, List.append_assoc] at heq
      obtain ⟨rfl, rfl⟩ := h.unique h' heq
      obtain ⟨rfl, rfl⟩ := hrest.unique hrest' (List.append_cancel_left heq)
      exact ⟨rfl, rfl⟩

theorem FilledFields.unique {fields entries entries' : Fields}
    {values values' more more' : List Json} :
    FilledFields fields values entries → FilledFields fields values' entries' →
      values ++ more = values' ++ more' → values' = values ∧ entries' = entries
  | .nil, h', _ => by
    cases h'
    exact ⟨rfl, rfl⟩
  | .dynamic hkey hrest, h', heq => by
    cases h' with
    | dynamic _ hrest' =>
      obtain ⟨rfl, htail⟩ := List.cons_eq_cons.mp heq
      obtain ⟨rfl, rfl⟩ := hrest.unique hrest' htail
      exact ⟨rfl, rfl⟩
    | static hnot _ _ => cases hnot.symm.trans (dynamicKey?_eq_some_iff.mpr hkey)
  | .static hnot h hrest, h', heq => by
    cases h' with
    | dynamic hkey _ => cases hnot.symm.trans (dynamicKey?_eq_some_iff.mpr hkey)
    | static _ h' hrest' =>
      rw [List.append_assoc, List.append_assoc] at heq
      obtain ⟨rfl, rfl⟩ := h.unique h' heq
      obtain ⟨rfl, rfl⟩ := hrest.unique hrest' (List.append_cancel_left heq)
      exact ⟨rfl, rfl⟩
end

/-! ## Runs -/

/-- The evaluation evaluates the slots and gives what they stand for, or fails where they do. -/
def Follows {α : Type} (docs : Documents) (xs : List Slot) (gives : List Json → α → Prop)
    (x : Eval α) : Prop :=
  ∀ e, (∃ values a e', Evaluated docs xs e values e' ∧ gives values a ∧ x e = .ok (a, e')) ∨
    ∃ error, Fails docs xs e error ∧ x e = .error error

namespace Follows

variable {α β : Type} {xs ys : List Slot} {gives : List Json → α → Prop}
  {gives' : List Json → β → Prop} {x : Eval α} {f : α → Eval β}

theorem pure {a : α} (h : gives [] a) : Follows docs [] gives (pure a) :=
  fun e => .inl ⟨[], a, e, .nil, h, rfl⟩

theorem bind (hx : Follows docs xs gives x) (hf : ∀ values a, gives values a →
    Follows docs ys (fun more b => gives' (values ++ more) b) (f a)) :
    Follows docs (xs ++ ys) gives' (x >>= f) := by
  intro e
  obtain ⟨values, a, e', hvalues, ha, hresult⟩ | ⟨error, hfails, hresult⟩ := hx e
  · rw [bind_of_ok hresult]
    obtain ⟨more, b, e₂, hmore, hb, hnext⟩ | ⟨error, hfails, hnext⟩ := hf values a ha e'
    · exact .inl ⟨_, b, e₂, hvalues.append hmore, hb, hnext⟩
    · exact .inr ⟨error, hvalues.fails hfails, hnext⟩
  · exact .inr ⟨error, hfails.append ys, bind_of_error hresult f⟩

theorem map {g : α → β} (hx : Follows docs xs gives x)
    (hg : ∀ values a, gives values a → gives' values (g a)) :
    Follows docs xs gives' (x >>= fun a => Pure.pure (g a)) := by
  have hlast : ∀ values a, gives values a →
      Follows docs [] (fun more b => gives' (values ++ more) b) (Pure.pure (g a)) := by
    intro values a ha
    refine .pure ?_
    rw [List.append_nil]
    exact hg values a ha
  have hbind : Follows docs (xs ++ []) gives' (x >>= fun a => Pure.pure (g a)) := hx.bind hlast
  rwa [List.append_nil] at hbind

theorem slot (slot : Slot) :
    Follows docs [slot] (fun values v => values = [v]) (slot.eval docs) := by
  intro e
  cases hresult : slot.eval docs e with
  | error error => exact .inr ⟨error, .here hresult, rfl⟩
  | ok r => exact .inl ⟨[r.1], r.1, r.2, .cons hresult .nil, rfl, rfl⟩

theorem error_iff (hx : Follows docs xs gives x) {e : Entropy} {error : EvalError} :
    x e = .error error ↔ Fails docs xs e error := by
  obtain ⟨values, a, e', hvalues, -, hresult⟩ | ⟨error', hfails, hresult⟩ := hx e
  · rw [hresult]
    exact ⟨nofun, fun hfails => (hvalues.not_fails hfails).elim⟩
  · rw [hresult]
    constructor
    · rintro ⟨⟩
      exact hfails
    · exact fun hfails' => by rw [hfails.unique hfails']

theorem succeeds_iff (hx : Follows docs xs gives x) {e : Entropy} :
    (∃ r, x e = .ok r) ↔ ∃ values e', Evaluated docs xs e values e' := by
  obtain ⟨values, a, e', hvalues, -, hresult⟩ | ⟨error, hfails, hresult⟩ := hx e
  · exact ⟨fun _ => ⟨values, e', hvalues⟩, fun _ => ⟨_, hresult⟩⟩
  · constructor
    · rintro ⟨r, hr⟩
      cases hresult.symm.trans hr
    · rintro ⟨values, e', hvalues⟩
      exact (hvalues.not_fails hfails).elim

theorem ok_iff (hx : Follows docs xs gives x)
    (hunique : ∀ values a b, gives values a → gives values b → b = a) {e e' : Entropy} {a : α} :
    x e = .ok (a, e') ↔ ∃ values, Evaluated docs xs e values e' ∧ gives values a := by
  obtain ⟨values, b, e₁, hvalues, hb, hresult⟩ | ⟨error, hfails, hresult⟩ := hx e
  · rw [hresult]
    constructor
    · rintro ⟨⟩
      exact ⟨values, hvalues, hb⟩
    · rintro ⟨values', hvalues', ha⟩
      obtain ⟨rfl, rfl⟩ := hvalues.unique hvalues'
      rw [hunique _ _ _ hb ha]
  · rw [hresult]
    exact ⟨nofun, fun ⟨values, hvalues, _⟩ => (hvalues.not_fails hfails).elim⟩

end Follows

/-! ## Names -/

def named (entry : String × Json) : String × Json := ((dynamicKey? entry.1).getD entry.1, entry.2)

theorem named_eq_iff {key name : String} {v : Json} : (named (key, v)).1 = name ↔
    key = name ++ ".$" ∨ dynamicKey? key = none ∧ key = name := by
  rw [named, ← dynamicKey?_eq_some_iff]
  cases dynamicKey? key <;> simp

theorem get?_of_above {key : String} {fields : Fields} (h : ∀ entry ∈ fields, key < entry.1) :
    Fields.get? key fields = none := by
  rw [Option.eq_none_iff_forall_ne_some]
  intro v hv
  exact String.lt_irrefl key (h _ (Fields.mem_of_get? hv))

/-- Setting the entries under their names one after the other lets the dynamic entry of a name win,
which comes after the static one. -/
theorem get?_foldl_named {name : String} {entries before : Fields}
    (h : entries.Pairwise fun a b => a.1 < b.1) :
    Fields.get? name ((entries.map named).foldl (fun fields (key, v) => Fields.insert key v fields)
      before) = ((Fields.get? (name ++ ".$") entries).or (static? name entries)).or
        (Fields.get? name before) := by
  induction entries generalizing before with
  | nil => simp [Fields.get?, static?]
  | cons entry rest ih =>
    obtain ⟨key, v⟩ := entry
    obtain ⟨hfirst, hrest⟩ := List.pairwise_cons.mp h
    rw [List.map_cons, List.foldl_cons, ih hrest]
    dsimp only
    have hskip : ∀ other, key ≠ other → Fields.get? other ((key, v) :: rest) =
        Fields.get? other rest := fun other hne => by rw [Fields.get?, if_neg hne]
    have hbehind : ∀ other, other < key ∨ other = key → Fields.get? other rest = none := by
      rintro other (hlt | rfl)
      · exact get?_of_above fun entry hentry => String.lt_trans hlt (hfirst entry hentry)
      · exact get?_of_above hfirst
    by_cases hname : (named (key, v)).1 = name
    · have hset : Fields.get? name (Fields.insert (named (key, v)).1 (named (key, v)).2 before) =
          some v := by
        rw [hname, Fields.get?_insert_self]
        rfl
      rw [hset]
      rcases named_eq_iff.mp hname with rfl | ⟨hstatic, rfl⟩
      · have hstatic : static? name rest = none := by
          rw [static?, hbehind name (.inl (lt_dynamic name)), ite_self]
        rw [hstatic, hbehind _ (.inr rfl), Fields.get?, if_pos rfl]
        rfl
      · rw [hskip _ (String.ne_of_lt (lt_dynamic key)), static?, static?, hstatic,
          hbehind _ (.inr rfl)]
        cases Fields.get? (key ++ ".$") rest <;> simp [Fields.get?]
    · obtain ⟨hdynamic, hstatic⟩ := not_or.mp (named_eq_iff.not.mp hname)
      have hsame : static? name ((key, v) :: rest) = static? name rest := by
        rw [static?, static?]
        cases hkey : dynamicKey? name with
        | some target => rfl
        | none => rw [hskip name fun heq => hstatic ⟨heq ▸ hkey, heq⟩]
      rw [Fields.get?_insert_of_ne (Ne.symm hname), hskip _ hdynamic, hsame]

theorem named_ofList {entries : Fields} (h : entries.Pairwise fun a b => a.1 < b.1) :
    Named entries (Fields.ofList (entries.map named)) where
  sorted := Fields.ofList_sorted _
  get? name := by
    have hfold := @get?_foldl_named name entries [] h
    rwa [Fields.get?, Option.or_none] at hfold

theorem follows_dynamic (name : String) (v : Json) :
    Follows docs [⟨name ++ ".$", v⟩] (fun values entry => ∃ w, values = [w] ∧ entry = (name, w))
      (match v with
        | .str text => do
          let w ← dynamic text docs
          return (name, w)
        | _ => throw (.typeError (.dynamicValue (name ++ ".$")))) := by
  have hslot : Follows docs [⟨name ++ ".$", v⟩]
      (fun values entry => ∃ w, values = [w] ∧ entry = (name, w))
      (do let w ← Slot.eval docs ⟨name ++ ".$", v⟩; return (name, w)) :=
    (Follows.slot ⟨name ++ ".$", v⟩).map fun values w hw => ⟨w, hw, rfl⟩
  cases v <;> exact hslot

mutual
theorem follows_render : (t : Json) → t.Sorted → Follows docs (slots t) (Filled t) (render docs t)
  | .obj fields, h => by
    rw [Json.Sorted] at h
    rw [render, slots]
    refine (follows_renderFields fields h.2).map fun values out hout => ?_
    obtain ⟨entries, hentries, rfl⟩ := hout
    exact .obj hentries (named_ofList (hentries.sorted h.1))
  | .arr items, h => by
    rw [Json.Sorted] at h
    rw [render, slots]
    exact (follows_renderItems items h).map fun values out hout => .arr hout
  | .null, _ => by
    rw [render, slots]
    exact .pure (.leaf rfl)
  | .bool b, _ => by
    rw [render, slots]
    exact .pure (.leaf rfl)
  | .num n, _ => by
    rw [render, slots]
    exact .pure (.leaf rfl)
  | .str s, _ => by
    rw [render, slots]
    exact .pure (.leaf rfl)

theorem follows_renderFields : (fields : List (String × Json)) → Json.SortedFields fields →
    Follows docs (fieldSlots fields)
      (fun values out => ∃ entries, FilledFields fields values entries ∧ out = entries.map named)
      (renderFields docs fields)
  | [], _ => by
    rw [renderFields, fieldSlots]
    exact .pure ⟨[], .nil, rfl⟩
  | (key, v) :: rest, h => by
    rw [Json.SortedFields] at h
    have hrest := follows_renderFields rest h.2
    rw [renderFields, fieldSlots]
    cases hkey : dynamicKey? key with
    | none =>
      have hentry : Follows docs (slots v)
          (fun values entry => ∃ w, Filled v values w ∧ entry = (key, w))
          (do let w ← render docs v; return (key, w)) :=
        (follows_render v h.1).map fun values w hw => ⟨w, hw, rfl⟩
      refine hentry.bind fun values entry hw => hrest.map fun more out hout => ?_
      obtain ⟨w, hw, rfl⟩ := hw
      obtain ⟨entries, hentries, rfl⟩ := hout
      exact ⟨(key, w) :: entries, .static hkey hw hentries, by simp [named, hkey]⟩
    | some name =>
      obtain rfl := dynamicKey?_eq_some_iff.mp hkey
      refine (follows_dynamic name v).bind fun values entry hw => hrest.map fun more out hout => ?_
      obtain ⟨w, rfl, rfl⟩ := hw
      obtain ⟨entries, hentries, rfl⟩ := hout
      exact ⟨(name ++ ".$", w) :: entries, .dynamic rfl hentries, by simp [named, hkey]⟩

theorem follows_renderItems : (items : List Json) → Json.SortedItems items →
    Follows docs (itemSlots items) (FilledItems items) (renderItems docs items)
  | [], _ => by
    rw [renderItems, itemSlots]
    exact .pure .nil
  | t :: rest, h => by
    rw [Json.SortedItems] at h
    rw [renderItems, itemSlots]
    refine (follows_render t h.1).bind fun values v hv => ?_
    exact (follows_renderItems rest h.2).map fun more out hout => .cons hv hout
end

/-! ## Templates without slots -/

theorem dynamicKey?_of_fieldSlots {fields : Fields} (h : fieldSlots fields = []) {key : String}
    {v : Json} (hmem : (key, v) ∈ fields) : dynamicKey? key = none := by
  induction fields with
  | nil => cases hmem
  | cons entry rest ih =>
    obtain ⟨k, w⟩ := entry
    rw [fieldSlots] at h
    obtain ⟨hentry, hrest⟩ := List.append_eq_nil_iff.mp h
    rcases List.mem_cons.mp hmem with heq | hmem
    · cases heq
      cases hkey : dynamicKey? key with
      | none => rfl
      | some name =>
        rw [hkey] at hentry
        cases hentry
    · exact ih hrest hmem

theorem named_self {fields : Fields} (hsorted : fields.Pairwise fun a b => a.1 < b.1)
    (h : fieldSlots fields = []) : Named fields fields where
  sorted := hsorted
  get? name := by
    have hnone : ∀ key, (dynamicKey? key).isSome = true → Fields.get? key fields = none := by
      intro key hkey
      rw [Option.eq_none_iff_forall_ne_some]
      intro v hv
      rw [dynamicKey?_of_fieldSlots h (Fields.mem_of_get? hv)] at hkey
      cases hkey
    have hdynamic : dynamicKey? (name ++ ".$") = some name := dynamicKey?_eq_some_iff.mpr rfl
    rw [hnone (name ++ ".$") (by rw [hdynamic]; rfl), Option.none_or, static?]
    split
    · next hname => exact hnone name hname
    · rfl

mutual
theorem filled_self : (t : Json) → t.Sorted → slots t = [] → Filled t [] t
  | .obj fields, ht, h => by
    rw [Json.Sorted] at ht
    rw [slots] at h
    exact .obj (filledFields_self fields ht.2 h) (named_self ht.1 h)
  | .arr items, ht, h => by
    rw [Json.Sorted] at ht
    rw [slots] at h
    exact .arr (filledItems_self items ht h)
  | .null, _, _ => .leaf rfl
  | .bool _, _, _ => .leaf rfl
  | .num _, _, _ => .leaf rfl
  | .str _, _, _ => .leaf rfl

theorem filledItems_self : (items : List Json) → Json.SortedItems items → itemSlots items = [] →
    FilledItems items [] items
  | [], _, _ => .nil
  | t :: rest, hsorted, h => by
    rw [Json.SortedItems] at hsorted
    rw [itemSlots] at h
    obtain ⟨ht, hrest⟩ := List.append_eq_nil_iff.mp h
    exact .cons (filled_self t hsorted.1 ht) (filledItems_self rest hsorted.2 hrest)

theorem filledFields_self : (fields : List (String × Json)) → Json.SortedFields fields →
    fieldSlots fields = [] → FilledFields fields [] fields
  | [], _, _ => .nil
  | (key, t) :: rest, hsorted, h => by
    rw [Json.SortedFields] at hsorted
    have hkey := dynamicKey?_of_fieldSlots h (List.mem_cons_self ..)
    rw [fieldSlots, hkey] at h
    obtain ⟨ht, hrest⟩ := List.append_eq_nil_iff.mp h
    exact .static hkey (filled_self t hsorted.1 ht) (filledFields_self rest hsorted.2 hrest)
end

/-! ## The reading -/

/-- Rendering a template succeeds exactly when all its slots have values, evaluated in order; it
then gives the template with these values and the source of drawn values that the last of them left.
Else it fails with the error of the first slot that has none. A template without slots is left as it
is, and nothing is drawn. -/
theorem render_reading {t : Json} (ht : t.Sorted) (docs : Documents) (e : Entropy) :
    ((∃ r, render docs t e = .ok r) ↔ ∃ values e', Evaluated docs (slots t) e values e') ∧
      (∀ v e', render docs t e = .ok (v, e') ↔
        ∃ values, Evaluated docs (slots t) e values e' ∧ Filled t values v) ∧
      (∀ error, render docs t e = .error error ↔ Fails docs (slots t) e error) ∧
      (slots t = [] → render docs t e = .ok (t, e)) := by
  have hfollows : Follows docs (slots t) (Filled t) (render docs t) := follows_render t ht
  have hunique : ∀ values v w, Filled t values v → Filled t values w → w = v := by
    intro values v w hv hw
    exact (hv.unique hw (rfl : values ++ [] = values ++ [])).2
  refine ⟨hfollows.succeeds_iff, fun v e' => hfollows.ok_iff hunique,
    fun error => hfollows.error_iff, fun hslots => ?_⟩
  rw [hfollows.ok_iff hunique, hslots]
  exact ⟨[], .nil, filled_self t ht hslots⟩

/-- A name with and without the ending, and a dynamic entry deeper inside. -/
def orderTemplate : Json :=
  .obj [("lines", .arr [.obj [("count.$", .str "$.order.count")], .bool true]),
    ("user", .str "nobody"), ("user.$", .str "$.name")]

def orderDocuments : Documents :=
  ⟨.obj [("name", .str "Ada"), ("order", .obj [("count", .num (.int 2))])], .null⟩

theorem dynamic_of_path {text : String} {v : Json} (hpath : isIntrinsic text = false)
    (h : Path.resolve text docs = .ok v) (e : Entropy) : dynamic text docs e = .ok (v, e) := by
  unfold dynamic
  rw [hpath, h]
  rfl

theorem render_reading_order : orderTemplate.Sorted ∧
    slots orderTemplate = [⟨"count.$", .str "$.order.count"⟩, ⟨"user.$", .str "$.name"⟩] ∧
    render orderDocuments orderTemplate (.seeded 0) = .ok (.obj [("lines", .arr [.obj
      [("count", .num (.int 2))], .bool true]), ("user", .str "Ada")], .seeded 0) := by
  have hsorted : orderTemplate.Sorted := by
    simp only [orderTemplate, Json.Sorted, Json.SortedFields, Json.SortedItems]
    decide
  have hcount : dynamic "$.order.count" orderDocuments (.seeded 0) =
      .ok (.num (.int 2), .seeded 0) :=
    dynamic_of_path (by cbv) (by cbv) _
  have hname : dynamic "$.name" orderDocuments (.seeded 0) = .ok (.str "Ada", .seeded 0) :=
    dynamic_of_path (by cbv) (by cbv) _
  have hslots : Evaluated orderDocuments (slots orderTemplate) (.seeded 0)
      [.num (.int 2), .str "Ada"] (.seeded 0) :=
    .cons hcount (.cons hname .nil)
  have hline : FilledItems [.obj [("count.$", .str "$.order.count")], .bool true]
      ([.num (.int 2)] ++ ([] ++ [])) [.obj [("count", .num (.int 2))], .bool true] :=
    .cons (.obj (.dynamic (by decide : _ = "count" ++ ".$") .nil) (named_ofList (by decide)))
      (.cons (.leaf rfl) .nil)
  have hfilled : Filled orderTemplate (([.num (.int 2)] ++ ([] ++ [])) ++ ([] ++ [.str "Ada"]))
      (.obj [("lines", .arr [.obj [("count", .num (.int 2))], .bool true]),
        ("user", .str "Ada")]) :=
    .obj (.static rfl (.arr hline) (.static rfl (.leaf rfl)
      (.dynamic (by decide : _ = "user" ++ ".$") .nil)))
      (named_ofList (by decide))
  obtain ⟨-, hok, -, -⟩ := render_reading hsorted orderDocuments (.seeded 0)
  exact ⟨hsorted, rfl, (hok _ _).mpr ⟨_, hslots, hfilled⟩⟩

end Template
end StateCheck
