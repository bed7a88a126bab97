import TrafficGate.Resource.Basic
import TrafficGate.Proofs.Dialogue.Log
/-!
# The calls of an operation

An operation asks for calls and for samples, and only calls have answers.
`ApiM.calls` passes over the samples, so that a log holds what was asked
of the API and what came of it. It goes through `bind`, and an attempt
that fails in one step asks for nothing more (`Attempt.calls_bind`).
-/

namespace TrafficGate

/-- A computation over calls alone. -/
abbrev CallM (α : Type) := Dialogue Call Call.Outcome α

/-- A call, and what came of it. -/
abbrev AnsweredCall := Sigma Call.Outcome

namespace ApiM

variable {α β : Type}

/-- The calls of an operation. -/
def calls : ApiM α → CallM α
  | .done a => .done a
  | .ask (.call c) next => .ask c fun o => calls (next o)
  | .ask (.count _) next => calls (next ())

/-- What is over has no calls left. -/
@[simp] theorem calls_done (a : α) : ApiM.calls (.done a) = .done a := rfl

/-- A call is its own dialogue of calls. -/
@[simp] theorem calls_call (c : Call) : (ApiM.call c).calls = .ask c .done := rfl

/-- Samples are no calls. -/
@[simp] theorem calls_count (s : Sample) : (ApiM.count s).calls = .done () := rfl

/-- The calls of two operations in a row are those of the first, and then
those of the second. -/
@[simp] theorem calls_bind (d : ApiM α) (f : α → ApiM β) :
    ApiM.calls (d.bind f) = d.calls.bind fun a => (f a).calls := by
  induction d with
  | done a => rfl
  | ask q next ih =>
    cases q with
    | call c => exact congrArg (Dialogue.ask c) (funext ih)
    | count s => exact ih ()

end ApiM

namespace Attempt

variable {α β : Type}

/-- The calls of an attempt. -/
def calls (x : Attempt α) : CallM (Except ResourceError α) := ApiM.calls x.run

/-- How an attempt goes on after a step: not at all once it has failed. -/
def goOn (f : α → Attempt β) : Except ResourceError α → CallM (Except ResourceError β)
  | .ok a => (f a).calls
  | .error e => .done (.error e)

/-- With a result, the next step is taken. -/
@[simp] theorem goOn_ok (f : α → Attempt β) (a : α) : goOn f (.ok a) = (f a).calls := rfl

/-- A result alone asks for nothing. -/
@[simp] theorem calls_pure (a : α) : (pure a : Attempt α).calls = .done (.ok a) := rfl

/-- The calls of two attempts in a row; after an error there are no more. -/
@[simp] theorem calls_bind (x : Attempt α) (f : α → Attempt β) :
    (x >>= f).calls = x.calls.bind (goOn f) := by
  change ApiM.calls (Dialogue.bind x.run (ExceptT.bindCont f)) = _
  rw [ApiM.calls_bind]
  congr 1
  funext r
  cases r <;> rfl

/-- A result that is known already asks for nothing. -/
@[simp] theorem calls_liftExcept (x : Except ResourceError α) :
    (liftM x : Attempt α).calls = .done x := rfl

/-- Samples are no calls of an attempt, either. -/
@[simp] theorem calls_count (s : Sample) : (count s).calls = .done (.ok ()) := rfl

/-- Without a client an attempt is over before its first call. -/
@[simp] theorem calls_requireClient (configured : Bool) :
    (requireClient configured).calls =
      .done (if configured then .ok () else .error .unconfigured) := by
  cases configured <;> rfl

/-- What an action makes of what came of its call. -/
def received (action : Action) {c : Call} (o : c.Outcome) :
    Except ResourceError (Response c.Payload) :=
  match o with
  | .ok r => .ok r
  | .error e => .error (.transport action e)

/-- A response that was received is the one that the call had. -/
theorem received_eq_ok {action : Action} {c : Call} {o : c.Outcome} {r : Response c.Payload}
    (h : received action o = .ok r) : o = .ok r := by
  cases o with
  | error e => cases h
  | ok r' =>
    have hr : r' = r := Except.ok.inj h
    rw [hr]

/-- An attempt at a call is that call, with the outcome as its result. -/
@[simp] theorem calls_call (action : Action) (c : Call) :
    (call action c).calls = .ask c fun o => .done (received action o) := by
  change ApiM.calls (Dialogue.bind (ApiM.call c) _) = _
  rw [ApiM.calls_bind, ApiM.calls_call]
  simp only [Dialogue.ask_bind, Dialogue.done_bind, Dialogue.ask.injEq, heq_eq_eq, true_and]
  funext o
  cases o <;> rfl

/-- The calls of an attempt and those of the way out of its error. -/
@[simp] theorem calls_tryCatch (x : Attempt α) (handle : ResourceError → Attempt α) :
    (tryCatch x handle).calls = x.calls.bind fun r =>
      match r with
      | .ok a => .done (.ok a)
      | .error e => (handle e).calls := by
  change ApiM.calls (Dialogue.bind x.run _) = _
  rw [ApiM.calls_bind]
  congr 1
  funext r
  cases r <;> rfl

end Attempt

end TrafficGate
