import StateCheck.Proofs.Mock.Counts
import StateCheck.Proofs.Run.Plain
/-!
The requests of Task states.

An attempt of a Task state first builds its request (`Run.taskRequest`), which asks the mock engine
nothing and fails only fatally, and then calls the engine once and goes on with the answer
(`Run.taskAnswer`).
-/
namespace StateCheck
set_option autoImplicit false

namespace Process

variable {α β γ : Type} {p : Process α} {f : α → Process β}

theorem bind_assoc (p : Process α) (f : α → Process β) (g : β → Process γ) :
    (p >>= f) >>= g = p >>= fun a => f a >>= g := by
  funext s
  cases h : (p s).result with
  | error fault =>
    have hf : ((p >>= f) s).result = .error fault := by rw [bind_of_error h]
    rw [bind_of_error hf, bind_of_error h, bind_of_error h]
  | ok a =>
    cases h' : (f a (p s).session).result with
    | error fault =>
      have hf : ((p >>= f) s).result = .error fault := by rw [bind_of_ok h]; exact h'
      rw [bind_of_error hf, bind_of_ok h, bind_of_ok h, bind_of_error h']
      rfl
    | ok b =>
      have hf : ((p >>= f) s).result = .ok b := by rw [bind_of_ok h]; exact h'
      rw [bind_of_ok hf, bind_of_ok h, bind_of_ok h, bind_of_ok h']
      simp only [Outcome.after, List.append_assoc]

/-! ## Asking nothing -/

def Offline (p : Process α) : Prop := ∀ s, (p s).session.engine = s.engine

theorem Offline.bind (hp : p.Offline) (hf : ∀ a, (f a).Offline) : Offline (p >>= f) := by
  intro s
  cases h : (p s).result with
  | error fault =>
    rw [bind_of_error h]
    exact hp s
  | ok a =>
    rw [bind_of_ok h]
    exact (hf a _).trans (hp s)

theorem offline_composes : Composes Offline (fun _ => True) fun _ => False where
  pure _ _ := rfl
  fail _ _ := rfl
  draw docs template _ := by
    intro s
    unfold draw
    cases Template.render docs template s.entropy <;> rfl
  call _ _ h := h.elim
  bind := Offline.bind

/-! ## Failing fatally -/

def Fatal (p : Process α) : Prop := ∀ s fault, (p s).result = .error fault → fault.catchable = false

theorem fatal_pure (a : α) : Fatal (Pure.pure a : Process α) := by
  intro s fault h
  cases h

theorem fatal_fail {fault : Fault} (h : fault.catchable = false) :
    Fatal (fail fault : Process α) := by
  intro s fault' hresult
  cases hresult
  exact h

theorem fatal_eval (x : Except EvalError α) : Fatal (eval x) := by
  cases x with
  | error e => exact fatal_fail rfl
  | ok a => exact fatal_pure a

theorem fatal_draw (x : Eval α) : Fatal (draw x) := by
  intro s fault h
  unfold draw at h
  cases hx : x s.entropy with
  | error e =>
    rw [hx] at h
    cases h
    rfl
  | ok r =>
    rw [hx] at h
    cases h

theorem Fatal.bind (hp : p.Fatal) (hf : ∀ a, (f a).Fatal) : Fatal (p >>= f) := by
  intro s fault hresult
  cases h : (p s).result with
  | error fault' =>
    rw [bind_of_error h] at hresult
    cases hresult
    exact hp s _ h
  | ok a =>
    rw [bind_of_ok h] at hresult
    exact hf a _ _ hresult

end Process

namespace Run

/-! ## Requests and answers -/

/-- The request of a task with its time limit. -/
def taskRequest (name : String) (spec : TaskSpec) (context : Context) (raw : Json)
    (retryCount : Nat) : Process (Json × Option Nat) := do
  let ctx := context.document name retryCount
  let effective ← .eval (spec.io.inputPath.select ⟨raw, ctx⟩)
  let request ← parametersOr spec.parameters effective ctx
  let timeout ← timeoutOf spec ⟨effective, ctx⟩
  return (request, timeout)

/-- What a task makes of the answer to its request. -/
def taskAnswer (name : String) (spec : TaskSpec) (context : Context) (raw : Json)
    (retryCount : Nat) (request : Json × Option Nat) : Process Json := do
  let response ← .call name request.1
  let result ← taskResult name response request.2
  finish raw result spec.resultSelector spec.resultPath spec.io.outputPath
    (context.document name retryCount)

section Task
variable {name : String} {spec : TaskSpec} {context : Context} {raw : Json} {retryCount : Nat}
  {s : Session}

theorem taskAttempt_eq : taskAttempt name spec context raw retryCount =
    taskRequest name spec context raw retryCount >>=
      taskAnswer name spec context raw retryCount := by
  unfold taskRequest
  simp only [Process.bind_assoc]
  rfl

theorem taskRequest_offline : (taskRequest name spec context raw retryCount).Offline := by
  have hP := Process.offline_composes
  exact hP.bind (hP.eval _) fun _ => hP.bind (hP.parametersOr _ _ fun _ _ => trivial) fun _ =>
    hP.bind (hP.timeoutOf _ _) fun _ => hP.pure _

theorem timeoutOf_fatal (docs : Documents) : (timeoutOf spec docs).Fatal := by
  unfold timeoutOf
  split
  · exact Process.fatal_pure _
  · refine (Process.fatal_eval _).bind fun v => ?_
    split
    · exact Process.fatal_pure _
    · exact Process.fatal_fail rfl
  · exact Process.fatal_pure _

theorem taskRequest_fatal : (taskRequest name spec context raw retryCount).Fatal := by
  refine (Process.fatal_eval _).bind fun effective => ?_
  refine Process.Fatal.bind ?_ fun request => (timeoutOf_fatal _).bind fun timeout =>
    Process.fatal_pure _
  unfold parametersOr
  split
  · exact Process.fatal_pure _
  · exact Process.fatal_draw _

theorem taskRequest_plain : (taskRequest name spec context raw retryCount).Plain := by
  have hP := Process.plain_composes
  exact hP.bind (hP.eval _) fun _ => hP.bind (hP.parametersOr _ _ fun _ _ => trivial) fun _ =>
    hP.bind (hP.timeoutOf _ _) fun _ => hP.pure _

theorem taskAnswer_calls (request : Json × Option Nat) :
    (taskAnswer name spec context raw retryCount request s).session.engine.callCount name =
      s.engine.callCount name + 1 := by
  have hP := Process.offline_composes
  let answer (response : MockResponse) : Process Json := do
    let result ← taskResult name response request.2
    finish raw result spec.resultSelector spec.resultPath spec.io.outputPath
      (context.document name retryCount)
  have hanswer : ∀ response, (answer response).Offline := fun response =>
    hP.bind (hP.taskResult _ _ _) fun _ => hP.finish _ _ _ _ _ fun _ _ => trivial
  have hcall := Process.bind_of_ok (p := Process.call name request.1) (f := answer) (s := s) rfl
  show ((Process.call name request.1 >>= answer) s).session.engine.callCount name = _
  rw [hcall]
  show (answer _ _).session.engine.callCount name = _
  rw [hanswer]
  exact s.engine.callCount_resolve_self name request.1

/-- An attempt takes one call of its state, unless its request fails: then it fails with it, and
nothing can catch that. -/
theorem taskAttempt_reading :
    (∀ fault, (taskRequest name spec context raw retryCount s).result = .error fault →
      taskAttempt name spec context raw retryCount s =
          ⟨.error fault, [.fault fault],
            (taskRequest name spec context raw retryCount s).session⟩ ∧
        (taskAttempt name spec context raw retryCount s).session.engine = s.engine ∧
        fault.catchable = false) ∧
    ∀ request, (taskRequest name spec context raw retryCount s).result = .ok request →
      (taskAttempt name spec context raw retryCount s).session.engine.callCount name =
        s.engine.callCount name + 1 := by
  rw [taskAttempt_eq]
  refine ⟨fun fault h => ?_, fun request h => ?_⟩
  · have hlog : (taskRequest name spec context raw retryCount s).log = [.fault fault] := by
      rw [taskRequest_plain, h]
      rfl
    rw [Process.bind_of_error h, hlog]
    exact ⟨rfl, taskRequest_offline s, taskRequest_fatal s fault h⟩
  · rw [Process.bind_of_ok h]
    show (taskAnswer name spec context raw retryCount request _).session.engine.callCount name = _
    rw [taskAnswer_calls, taskRequest_offline]

end Task

end Run
end StateCheck
