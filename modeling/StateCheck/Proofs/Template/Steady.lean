import StateCheck.Template
/-!
Templates that draw nothing.

Two functions of intrinsic calls draw: the one that makes identifiers and the one that makes random
integers. A template that calls neither of them, at any depth, renders in the same way from every
source of drawn values and leaves the source as it is (`Template.steady_render`).
-/
namespace StateCheck
set_option autoImplicit false

/-! ## Steady evaluations -/

namespace Eval

variable {α β : Type}

/-- The result is the same from every source of drawn values, and the source is left as it is. -/
def Steady (x : Eval α) : Prop := ∃ r : Except EvalError α, ∀ e, x e = r.map fun a => (a, e)

theorem steady_pure (a : α) : Steady (pure a : Eval α) := ⟨.ok a, fun _ => rfl⟩

theorem steady_throw (error : EvalError) : Steady (throw error : Eval α) :=
  ⟨.error error, fun _ => rfl⟩

theorem steady_lift (x : Except EvalError α) : Steady (StateT.lift x) := by
  refine ⟨x, fun e => ?_⟩
  cases x <;> rfl

theorem Steady.bind {x : Eval α} {f : α → Eval β} (hx : Steady x) (hf : ∀ a, Steady (f a)) :
    Steady (x >>= f) := by
  obtain ⟨r, hr⟩ := hx
  cases r with
  | error error =>
    refine ⟨.error error, fun e => ?_⟩
    show (x e >>= fun p => f p.1 p.2) = _
    rw [hr e]
    rfl
  | ok a =>
    obtain ⟨r', hr'⟩ := hf a
    refine ⟨r', fun e => ?_⟩
    show (x e >>= fun p => f p.1 p.2) = _
    rw [hr e]
    exact hr' e

end Eval

/-! ## Intrinsic calls -/

namespace Intrinsic

def drawing : List String := ["States.UUID", "States.MathRandom"]

mutual
/-- Whether the argument calls a function that draws. -/
def Arg.draws : Arg → Bool
  | .text _ | .literal _ | .path _ => false
  | .call name args => drawing.contains name || argsDraw args

def argsDraw : List Arg → Bool
  | [] => false
  | a :: rest => a.draws || argsDraw rest
end

theorem steady_apply {name : String} {f : Function} (hname : Function.ofName? name = some f)
    (h : drawing.contains name = false) (args : List Json) : (f.apply name args).Steady := by
  have hvalue : ∀ v : Checked Json, Eval.Steady fun e =>
      (do let v ← v.mapError (EvalError.intrinsicFailure name); return (v, e)) := by
    intro v
    refine ⟨v.mapError (EvalError.intrinsicFailure name), fun e => ?_⟩
    cases v <;> rfl
  -- A name of the table that is none of the two belongs to a function that draws nothing.
  have htable : ∀ entry ∈ Function.table, drawing.contains entry.1 = false →
      entry.2 ≠ .mathRandom ∧ entry.2 ≠ .uuid := by decide
  obtain ⟨before, after, hsplit, -⟩ := List.lookup_eq_some_iff.mp hname
  have hmem : (name, f) ∈ Function.table := by
    rw [hsplit]
    exact List.mem_append_right _ (List.mem_cons_self ..)
  have hf : f ≠ .mathRandom ∧ f ≠ .uuid := htable _ hmem h
  cases f with
  | mathRandom => exact (hf.1 rfl).elim
  | uuid => exact (hf.2 rfl).elim
  | _ => exact hvalue _

mutual
theorem steady_eval (docs : Documents) : (a : Arg) → a.draws = false → (a.eval docs).Steady
  | .text raw, _ => by
    rw [Arg.eval]
    exact Eval.steady_pure _
  | .literal v, _ => by
    rw [Arg.eval]
    exact Eval.steady_pure _
  | .path text, _ => by
    rw [Arg.eval]
    exact Eval.steady_lift _
  | .call name args, h => by
    obtain ⟨hname, hargs⟩ : drawing.contains name = false ∧ argsDraw args = false := by
      rw [Arg.draws] at h
      exact Bool.or_eq_false_iff.mp h
    rw [Arg.eval]
    split
    · exact steady_evalFormat docs args hargs
    · refine (steady_evalArgs docs args hargs).bind fun values => ?_
      cases hf : Function.ofName? name with
      | some f => exact steady_apply hf hname values
      | none => exact Eval.steady_throw _

theorem steady_evalArgs (docs : Documents) :
    (args : List Arg) → argsDraw args = false → (evalArgs docs args).Steady
  | [], _ => by
    rw [evalArgs]
    exact Eval.steady_pure _
  | a :: rest, h => by
    obtain ⟨ha, hrest⟩ : a.draws = false ∧ argsDraw rest = false := by
      rw [argsDraw] at h
      exact Bool.or_eq_false_iff.mp h
    rw [evalArgs]
    exact (steady_eval docs a ha).bind fun v => (steady_evalArgs docs rest hrest).bind fun more =>
      Eval.steady_pure _

theorem steady_evalFormat (docs : Documents) :
    (args : List Arg) → argsDraw args = false → (evalFormat docs args).Steady
  | [], _ => by
    rw [evalFormat]
    exact Eval.steady_throw _
  | a :: rest, h => by
    obtain ⟨ha, hrest⟩ : a.draws = false ∧ argsDraw rest = false := by
      rw [argsDraw] at h
      exact Bool.or_eq_false_iff.mp h
    have hformat : ∀ template, Eval.Steady (do
        let values ← evalArgs docs rest
        StateT.lift (format template values)) :=
      fun template => (steady_evalArgs docs rest hrest).bind fun values => Eval.steady_lift _
    cases a with
    | text raw =>
      rw [evalFormat]
      exact hformat raw
    | _ =>
      rw [evalFormat]
      · refine (steady_eval docs _ ha).bind fun v => ?_
        cases v with
        | str template => exact hformat template
        | _ => exact Eval.steady_throw _
      · exact nofun
end

/-- Whether the text of an intrinsic expression calls a function that draws. -/
def textDraws (text : String) : Bool :=
  match parse text with
  | .ok call => (Arg.call call.name call.args).draws
  | .error _ => false

theorem steady_evaluate {text : String} (h : textDraws text = false) (docs : Documents) :
    (evaluate text docs).Steady := by
  rw [textDraws] at h
  unfold evaluate
  cases hparse : parse text with
  | error e => exact ⟨.error e, fun _ => rfl⟩
  | ok call =>
    rw [hparse] at h
    exact steady_eval docs (.call call.name call.args) h

end Intrinsic

/-! ## Templates -/

namespace Template
open Intrinsic

/-- Whether the value of a dynamic entry calls a function that draws. -/
def dynamicDraws : Json → Bool
  | .str text => isIntrinsic text && textDraws text
  | _ => false

mutual
/-- Whether a dynamic entry of the template, at any depth, calls a function that draws. -/
def draws : Json → Bool
  | .obj fields => fieldsDraw fields
  | .arr items => itemsDraw items
  | .null | .bool _ | .num _ | .str _ => false

def fieldsDraw : List (String × Json) → Bool
  | [] => false
  | (key, value) :: rest =>
    (match dynamicKey? key with
      | some _ => dynamicDraws value
      | none => draws value) || fieldsDraw rest

def itemsDraw : List Json → Bool
  | [] => false
  | v :: rest => draws v || itemsDraw rest
end

theorem steady_dynamic {text : String} (h : dynamicDraws (.str text) = false)
    (docs : Documents) : (dynamic text docs).Steady := by
  rw [dynamicDraws] at h
  unfold dynamic
  split
  · next hcall =>
    rw [hcall, Bool.true_and] at h
    exact steady_evaluate h docs
  · exact Eval.steady_lift _

mutual
theorem steady_render (docs : Documents) : (t : Json) → draws t = false → (render docs t).Steady
  | .obj fields, h => by
    rw [draws] at h
    rw [render]
    exact (steady_renderFields docs fields h).bind fun _ => Eval.steady_pure _
  | .arr items, h => by
    rw [draws] at h
    rw [render]
    exact (steady_renderItems docs items h).bind fun _ => Eval.steady_pure _
  | .null, _ => by
    rw [render]
    exact Eval.steady_pure _
  | .bool b, _ => by
    rw [render]
    exact Eval.steady_pure _
  | .num n, _ => by
    rw [render]
    exact Eval.steady_pure _
  | .str s, _ => by
    rw [render]
    exact Eval.steady_pure _

theorem steady_renderFields (docs : Documents) :
    (fields : List (String × Json)) → fieldsDraw fields = false → (renderFields docs fields).Steady
  | [], _ => by
    rw [renderFields]
    exact Eval.steady_pure _
  | (key, value) :: rest, h => by
    rw [fieldsDraw] at h
    obtain ⟨hentry, hrest⟩ := Bool.or_eq_false_iff.mp h
    rw [renderFields]
    refine Eval.Steady.bind ?_ fun entry => (steady_renderFields docs rest hrest).bind fun more =>
      Eval.steady_pure _
    cases hkey : dynamicKey? key with
    | none =>
      rw [hkey] at hentry
      exact (steady_render docs value hentry).bind fun _ => Eval.steady_pure _
    | some target =>
      rw [hkey] at hentry
      cases value with
      | str text => exact (steady_dynamic hentry docs).bind fun _ => Eval.steady_pure _
      | _ => exact Eval.steady_throw _

theorem steady_renderItems (docs : Documents) :
    (items : List Json) → itemsDraw items = false → (renderItems docs items).Steady
  | [], _ => by
    rw [renderItems]
    exact Eval.steady_pure _
  | v :: rest, h => by
    rw [itemsDraw] at h
    obtain ⟨hv, hrest⟩ := Bool.or_eq_false_iff.mp h
    rw [renderItems]
    exact (steady_render docs v hv).bind fun _ => (steady_renderItems docs rest hrest).bind
      fun _ => Eval.steady_pure _
end

end Template
end StateCheck
