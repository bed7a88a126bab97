import TrafficGate.Resource.Basic
import TrafficGate.Proofs.Dialogue.Calls
/-!
# The operations of a resource

The five operations of a resource as values, so that something can be
said of all of them and of sequences of them.

Most of them are an attempt, and end with what came of it or with its
error (`Outcome.orError`); so their calls are those of the attempt
(`Attempt.calls_run_bind`). Of the diagnostics it is enough to know that
an error of an attempt is one to the user.
-/

namespace TrafficGate

/-- An operation on an instance with a model of type `M`. -/
inductive Operation (M : Type) where
  | create (plan : M)
  | read
  | update (plan : M)
  | delete
  | importState (key : String)
  deriving DecidableEq, Repr, Inhabited

/-- Carries out an operation on what is tracked. -/
def Resource.carryOut {M : Type} (r : Resource M) (state : Option M) :
    Operation M → ApiM (Outcome M)
  | .create plan => r.create plan state
  | .read => r.read state
  | .update plan => r.update plan state
  | .delete => r.delete state
  | .importState key => return r.importState key state

/-- What comes of an attempt: if it failed, its error is reported and what
was tracked before still is. -/
def Outcome.orError {M α : Type} (before : Option M) (f : α → Outcome M) :
    Except ResourceError α → Outcome M
  | .ok a => f a
  | .error e => ⟨before, [e.diagnostic]⟩

namespace Diagnostics

@[simp] theorem hasError_nil : hasError [] = false := rfl

@[simp] theorem hasError_singleton (d : Diagnostic) : hasError [d] = d.isError := by
  simp [hasError]

@[simp] theorem hasError_append (ds es : Diagnostics) :
    hasError (ds ++ es) = (hasError ds || hasError es) := by
  simp [hasError]

end Diagnostics

@[simp] theorem ResourceError.isError_diagnostic (e : ResourceError) :
    e.diagnostic.isError = true := by
  cases e <;> rfl

namespace Outcome

variable {M α β : Type} {before : Option M}

/-- An outcome without an error is not one of a failed attempt. -/
theorem exists_of_orError {f : α → Outcome M} {r : Except ResourceError α}
    (h : (orError before f r).diagnostics.hasError = false) : ∃ a, r = .ok a := by
  cases r with
  | ok a => exact ⟨a, rfl⟩
  | error e => simp [orError] at h

/-- A result may be changed before it is made an outcome of. -/
theorem orError_map {f : β → Outcome M} {g : α → β} {r : Except ResourceError α} :
    orError before f (r.map g) = orError before (fun a => f (g a)) r := by
  cases r <;> rfl

end Outcome

/-! ## The calls of an operation -/

namespace Attempt

variable {M α : Type} {before : Option M} {f : α → Outcome M}

/-- **An operation makes the calls of its attempt**, and ends with what came
of it. -/
theorem calls_run_bind {x : Attempt α} {finish : Except ResourceError α → ApiM (Outcome M)}
    (hok : ∀ a, (finish (.ok a)).calls = .done (f a))
    (herror : ∀ e, (finish (.error e)).calls = .done ⟨before, [e.diagnostic]⟩) :
    ApiM.calls (x.run >>= finish) =
      x.calls.bind fun r => .done (Outcome.orError before f r) := by
  rw [Dialogue.bind_eq_bind, ApiM.calls_bind]
  congr 1
  funext r
  cases r with
  | ok a => exact hok a
  | error e => exact herror e

/-- An operation whose attempt is one call and work on the response. -/
theorem calls_call_bind {action : Action} {c : Call} {x : Response c.Payload → Attempt α}
    {g : Response c.Payload → Outcome M}
    (h : ∀ r, ∃ result, (x r).calls = .done result ∧ Outcome.orError before f result = g r) :
    ((call action c >>= x).calls.bind fun r => .done (Outcome.orError before f r)) =
      .ask c fun o => .done (Outcome.orError before g (received action o)) := by
  rw [calls_bind, calls_call, Dialogue.ask_bind, Dialogue.ask_bind]
  congr 1
  funext o
  rw [Dialogue.done_bind]
  cases o with
  | error e => rfl
  | ok r =>
    obtain ⟨result, hcalls, hresult⟩ := h r
    change (x r).calls.bind _ = Dialogue.done (g r)
    rw [hcalls, Dialogue.done_bind, hresult]

end Attempt

end TrafficGate
