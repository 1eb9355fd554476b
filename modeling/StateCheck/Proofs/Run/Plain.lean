import StateCheck.Proofs.Machine.Depth
import StateCheck.Run.Container
/-!
Processes without inner scopes.

A property of processes that sequencing keeps (`Process.Composes`) holds of every state without
inner scopes, and of an attempt of a Map or Parallel state apart from its inner scopes. One such
property is to log nothing but the fault that ends the process (`Process.Plain`). `Process.Gives`
says what the results of a process have in common.
-/
namespace StateCheck
set_option autoImplicit false

/-- What a result logs when it comes up: its fault, if it is one. -/
def Fault.raised {α : Type} : Except Fault α → Log
  | .ok _ => []
  | .error fault => [.fault fault]

namespace Process

variable {α β : Type} {p : Process α} {f : α → Process β}

theorem bind_of_error {s : Session} {fault : Fault} (h : (p s).result = .error fault) :
    (p >>= f) s = ⟨.error fault, (p s).log, (p s).session⟩ := by
  show Process.bind p f s = _
  simp only [Process.bind, h]

theorem bind_of_ok {s : Session} {a : α} (h : (p s).result = .ok a) :
    (p >>= f) s = (f a (p s).session).after (p s).log := by
  show Process.bind p f s = _
  simp only [Process.bind, h]

/-! ## What sequencing keeps -/

/-- A property of processes that the basic ones have and sequencing keeps, as long as they render
templates of one kind and ask the mock engine under names of one kind. -/
structure Composes (P : {α : Type} → Process α → Prop) (Rendered : Json → Prop)
    (Asked : String → Prop) : Prop where
  pure {α : Type} (a : α) : P (Pure.pure a : Process α)
  fail {α : Type} (fault : Fault) : P (Process.fail fault : Process α)
  draw (docs : Documents) {template : Json} (h : Rendered template) :
    P (Process.draw (Template.render docs template))
  call (input : Json) {name : String} (h : Asked name) : P (Process.call name input)
  bind {α β : Type} {p : Process α} {f : α → Process β} (hp : P p) (hf : ∀ a, P (f a)) :
    P (p >>= f)

end Process

namespace Process.Composes
open Run

variable {P : {α : Type} → Process α → Prop} {Rendered : Json → Prop} {Asked : String → Prop}
  (hP : Composes P Rendered Asked)
include hP

theorem eval {α : Type} (x : Except EvalError α) : P (Process.eval x) := by
  cases x with
  | error e => exact hP.fail _
  | ok a => exact hP.pure a

theorem parametersOr {template : Option Json} (effective ctx : Json)
    (h : ∀ t ∈ template.toList, Rendered t) : P (parametersOr template effective ctx) := by
  cases template with
  | none => exact hP.pure _
  | some t => exact hP.draw _ (h t (List.mem_singleton.mpr rfl))

theorem finish (raw result : Json) {selector : Option Json} (resultPath outputPath : PathField)
    (ctx : Json) (h : ∀ t ∈ selector.toList, Rendered t) :
    P (Run.finish raw result selector resultPath outputPath ctx) :=
  hP.bind (hP.parametersOr _ _ h) fun _ => hP.bind (hP.eval _) fun _ => hP.eval _

/-! ## States without inner scopes -/

theorem pass (name : String) {spec : PassSpec} (context : Context) (raw : Json)
    (h : ∀ t ∈ (StateKind.pass spec).templates, Rendered t) : P (Run.pass name spec context raw) :=
  hP.bind (hP.eval _) fun _ => hP.bind (hP.parametersOr _ _ h) fun _ =>
    hP.bind (hP.eval _) fun _ => hP.bind (hP.eval _) fun _ => hP.pure _

theorem choice (name : String) (spec : ChoiceSpec) (context : Context) (raw : Json) :
    P (Run.choice name spec context raw) := by
  refine hP.bind (hP.eval _) fun effective => hP.bind (hP.eval _) fun matched => ?_
  cases matched.or spec.default with
  | none => exact hP.fail _
  | some next => exact hP.bind (hP.eval _) fun _ => hP.pure _

theorem checkDuration (duration : WaitDuration) (docs : Documents) :
    P (Run.checkDuration duration docs) := by
  cases duration with
  | seconds n => exact hP.pure _
  | secondsPath path =>
    refine hP.bind (hP.eval _) fun v => ?_
    split
    · exact hP.pure _
    · exact hP.fail _
  | timestamp text =>
    simp only [Run.checkDuration]
    split
    · exact hP.pure _
    · exact hP.fail _
  | timestampPath path =>
    refine hP.bind (hP.eval _) fun v => ?_
    split
    · exact hP.pure _
    · exact hP.fail _

theorem wait (name : String) (spec : WaitSpec) (context : Context) (raw : Json) :
    P (Run.wait name spec context raw) :=
  hP.bind (hP.eval _) fun _ => hP.bind (hP.checkDuration _ _) fun _ =>
    hP.bind (hP.eval _) fun _ => hP.pure _

theorem succeed (name : String) (spec : SucceedSpec) (context : Context) (raw : Json) :
    P (Run.succeed name spec context raw) :=
  hP.bind (hP.eval _) fun _ => hP.bind (hP.eval _) fun _ => hP.pure _

theorem failText (literal dynamic : Option String) (docs : Documents) :
    P (Run.failText literal dynamic docs) := by
  cases literal with
  | some text => exact hP.pure _
  | none =>
    cases dynamic with
    | none => exact hP.pure _
    | some path =>
      refine hP.bind (hP.eval _) fun v => ?_
      cases v with
      | str s => exact hP.pure _
      | _ => exact hP.fail _

theorem failState (name : String) (spec : FailSpec) (context : Context) (raw : Json) :
    P (Run.fail name spec context raw) :=
  hP.bind (hP.failText _ _ _) fun _ => hP.bind (hP.failText _ _ _) fun _ => hP.fail _

/-! ## Attempts of Task states -/

theorem timeoutOf (spec : TaskSpec) (docs : Documents) : P (Run.timeoutOf spec docs) := by
  unfold Run.timeoutOf
  split
  · exact hP.pure _
  · refine hP.bind (hP.eval _) fun v => ?_
    split
    · exact hP.pure _
    · exact hP.fail _
  · exact hP.pure _

theorem taskResult (name : String) (response : MockResponse) (timeout : Option Nat) :
    P (Run.taskResult name response timeout) := by
  unfold Run.taskResult
  cases response.outcome with
  | value v =>
    dsimp only
    split
    · split
      · exact hP.fail _
      · exact hP.pure _
    · exact hP.pure _
  | failure f =>
    dsimp only
    split
    · split
      · exact hP.fail _
      · exact hP.fail _
    · exact hP.fail _

theorem taskAttempt {name : String} {spec : TaskSpec} (context : Context) (raw : Json)
    (retryCount : Nat) (h : ∀ t ∈ (StateKind.task spec).templates, Rendered t)
    (hname : Asked name) : P (Run.taskAttempt name spec context raw retryCount) :=
  hP.bind (hP.eval _) fun _ =>
    hP.bind (hP.parametersOr _ _ fun t ht => h t (List.mem_append_left _ ht)) fun _ =>
    hP.bind (hP.timeoutOf _ _) fun _ => hP.bind (hP.call _ hname) fun _ =>
    hP.bind (hP.taskResult _ _ _) fun _ =>
    hP.finish _ _ _ _ _ fun t ht => h t (List.mem_append_right _ ht)

/-! ## Attempts of Map and Parallel states, apart from their inner scopes -/

theorem readItems {name : String} (effective : Json) (hname : Asked name) :
    P (Run.readItems name effective) := by
  refine hP.bind (hP.call _ hname) fun response => ?_
  split
  · exact hP.pure _
  · exact hP.fail _
  · exact hP.fail _

theorem mapItems {name : String} {spec : MapSpec} (effective ctx : Json)
    (hname : spec.itemReader.isSome = true → Asked name) :
    P (Run.mapItems name spec effective ctx) := by
  unfold Run.mapItems
  cases hreader : spec.itemReader with
  | some reader => exact hP.readItems _ (hname (by rw [hreader]; rfl))
  | none =>
    refine hP.bind (hP.eval _) fun v => ?_
    cases v with
    | arr items => exact hP.pure _
    | _ => exact hP.fail _

theorem iterationInputs {batcher : Option ItemBatcher} (items : List Json) (effective ctx : Json)
    (h : ∀ t ∈ (batcher.bind (·.batchInput)).toList, Rendered t) :
    P (Run.iterationInputs batcher items effective ctx) := by
  cases batcher with
  | none => exact hP.pure _
  | some b =>
    simp only [Run.iterationInputs]
    cases hinput : b.batchInput with
    | none => exact hP.bind (hP.pure _) fun _ => hP.pure _
    | some t =>
      have ht : Rendered t :=
        h t (by rw [Option.bind_some, hinput]; exact List.mem_singleton.mpr rfl)
      exact hP.bind (hP.draw _ ht) fun _ => hP.bind (hP.pure _) fun _ => hP.pure _

theorem writerSummary (name : String) {writer : Json} (effective ctx : Json) (context : Context)
    (h : ∀ t ∈ (writerTemplate? writer).toList, Rendered t) :
    P (Run.writerSummary name writer effective ctx context) := by
  unfold Run.writerSummary
  rw [writerTemplate?] at h
  dsimp only
  cases htemplate : (writer.get? "Parameters").or (writer.get? "Arguments") with
  | none => exact hP.bind (hP.pure _) fun _ => hP.pure _
  | some t =>
    rw [htemplate] at h
    exact hP.bind (hP.draw _ (h t (List.mem_singleton.mpr rfl))) fun _ => hP.pure _

end Process.Composes

namespace Process

variable {α β : Type} {p : Process α} {f : α → Process β}

/-! ## Logging nothing but one's fault -/

/-- The log holds the fault that ends the process, and nothing else. -/
def Plain (p : Process α) : Prop := ∀ s, (p s).log = Fault.raised (p s).result

theorem Plain.bind (hp : p.Plain) (hf : ∀ a, (f a).Plain) : Plain (p >>= f) := by
  intro s
  have hlog := hp s
  cases h : (p s).result with
  | error fault => rw [bind_of_error h, hlog, h]; rfl
  | ok a =>
    have hnil : (p s).log = [] := by rw [hlog, h]; rfl
    rw [bind_of_ok h, Outcome.after, hnil]
    exact hf a _

theorem plain_draw (x : Eval α) : Plain (draw x) := by
  intro s
  unfold draw
  cases x s.entropy <;> rfl

theorem plain_composes : Composes Plain (fun _ => True) fun _ => True where
  pure _ _ := rfl
  fail _ _ := rfl
  draw _ _ _ := plain_draw _
  call _ _ _ _ := rfl
  bind := Plain.bind

/-! ## What results have in common -/

def Gives (p : Process α) (R : α → Prop) : Prop := ∀ s a, (p s).result = .ok a → R a

theorem gives_pure {R : α → Prop} {a : α} (h : R a) : Gives (Pure.pure a : Process α) R := by
  intro s b hb
  cases hb
  exact h

theorem gives_fail {R : α → Prop} (fault : Fault) : Gives (fail fault : Process α) R := by
  intro s b hb
  cases hb

theorem gives_bind {R : β → Prop} (hf : ∀ a, (f a).Gives R) : Gives (p >>= f) R := by
  intro s b hb
  cases h : (p s).result with
  | error fault => rw [bind_of_error h] at hb; cases hb
  | ok a => rw [bind_of_ok h] at hb; exact hf a _ b hb

theorem gives_bind_eval {R : β → Prop} {x : Except EvalError α}
    (hf : ∀ a, x = .ok a → (f a).Gives R) : Gives (eval x >>= f) R := by
  cases x with
  | error e => exact gives_fail _
  | ok a => exact hf a rfl

end Process
end StateCheck
