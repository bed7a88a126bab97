import TrafficGate.Proofs.Resource.Operation
/-!
# What an attempt ends with

`Attempt.Ensures ok err x` says of an attempt that it ends, whatever comes
of its calls, with a result of which `ok` holds or with an error of which
`err` holds. There is one rule for each way in which attempts are put
together, so that what an operation may track and report is read off its
steps (`Ensures.outcome`).
-/

namespace TrafficGate

open Dialogue (Gives)

namespace Attempt

variable {α β M : Type} {ok : α → Prop} {ok' : β → Prop} {err : ResourceError → Prop}

/-- A result of which `ok` holds, or an error of which `err` holds. -/
def Ended (ok : α → Prop) (err : ResourceError → Prop) : Except ResourceError α → Prop
  | .ok a => ok a
  | .error e => err e

/-- Whatever comes of its calls, the attempt ends like this. -/
def Ensures (ok : α → Prop) (err : ResourceError → Prop) (x : Attempt α) : Prop :=
  ∀ log r, Gives x.calls log r → Ended ok err r

/-- Of some attempts nothing is said. -/
theorem ensures_any (x : Attempt α) : Ensures (fun _ => True) (fun _ => True) x := by
  rintro log (e | a) -
  · trivial
  · trivial

/-! ## One rule for each step -/

/-- An attempt without calls ends in one way. -/
theorem ensures_of_calls {x : Attempt α} {r : Except ResourceError α} (hx : x.calls = .done r)
    (h : Ended ok err r) : Ensures ok err x := by
  intro log r' hgives
  rw [hx] at hgives
  obtain ⟨-, rfl⟩ := Dialogue.gives_done.1 hgives
  exact h

theorem ensures_pure {a : α} (h : ok a) : Ensures ok err (pure a : Attempt α) :=
  ensures_of_calls (calls_pure a) h

theorem ensures_liftExcept {r : Except ResourceError α} (h : Ended ok err r) :
    Ensures ok err (liftM r : Attempt α) :=
  ensures_of_calls (calls_liftExcept r) h

theorem ensures_throw {e : ResourceError} (h : err e) :
    Ensures ok err (throw e : Attempt α) :=
  ensures_of_calls rfl h

theorem ensures_count (s : Sample) : Ensures (fun _ => True) err (count s) :=
  ensures_of_calls (calls_count s) trivial

theorem ensures_requireClient (configured : Bool) (h : err .unconfigured) :
    Ensures (fun _ => True) err (requireClient configured) := by
  refine ensures_of_calls (calls_requireClient configured) ?_
  cases configured with
  | true => trivial
  | false => exact h

/-- A call ends with any response, or with an error of its action. -/
theorem ensures_call {action : Action} {c : Call} (h : ∀ e, err (.transport action e)) :
    Ensures (fun _ => True) err (call action c) := by
  intro log r hgives
  rw [calls_call] at hgives
  obtain ⟨o, -, rfl⟩ := Dialogue.gives_ask_done.1 hgives
  cases o with
  | ok response => trivial
  | error e => exact h e

/-- **An attempt in two steps** goes on with what the first one ensures. -/
theorem Ensures.bind {x : Attempt α} {f : α → Attempt β} (hx : Ensures ok err x)
    (hf : ∀ a, ok a → Ensures ok' err (f a)) : Ensures ok' err (x >>= f) := by
  intro log r hgives
  rw [calls_bind] at hgives
  obtain ⟨s, l₁, l₂, rfl, h₁, h₂⟩ := Dialogue.gives_bind.1 hgives
  have hs := hx l₁ s h₁
  cases s with
  | ok a => exact hf a hs l₂ r h₂
  | error e =>
    obtain ⟨-, rfl⟩ := Dialogue.gives_done.1 h₂
    exact hs

/-- Nothing is done behind a failure. -/
theorem ensures_throw_bind {e : ResourceError} (h : err e) (f : α → Attempt β) :
    Ensures ok' err ((throw e : Attempt α) >>= f) :=
  (ensures_throw h : Ensures (fun _ => False) err _).bind fun _ hfalse => hfalse.elim

/-- What is caught may be made good, or fail in another way. -/
theorem Ensures.tryCatch {x : Attempt α} {handle : ResourceError → Attempt α}
    (hx : Ensures ok err x) (hhandle : ∀ e, err e → Ensures ok err (handle e)) :
    Ensures ok err (tryCatch x handle) := by
  intro log r hgives
  rw [calls_tryCatch] at hgives
  obtain ⟨s, l₁, l₂, rfl, h₁, h₂⟩ := Dialogue.gives_bind.1 hgives
  have hs := hx l₁ s h₁
  cases s with
  | ok a =>
    obtain ⟨-, rfl⟩ := Dialogue.gives_done.1 h₂
    exact hs
  | error e => exact hhandle e hs l₂ r h₂

/-! ## Operations -/

/-- **What comes of an operation is what its attempt ensures**: the work on
a good result, or an error and what was tracked before. -/
theorem Ensures.outcome {x : Attempt α} {before : Option M} {f : α → Outcome M}
    {log : List AnsweredCall} {out : Outcome M} (hx : Ensures ok err x)
    (h : Gives (x.calls.bind fun r => .done (Outcome.orError before f r)) log out) :
    (∃ a, ok a ∧ out = f a) ∨ ∃ e, err e ∧ out = ⟨before, [e.diagnostic]⟩ := by
  obtain ⟨r, hgives, rfl⟩ := Dialogue.gives_bind_done.1 h
  have hr := hx log r hgives
  cases r with
  | ok a => exact .inl ⟨a, hr, rfl⟩
  | error e => exact .inr ⟨e, hr, rfl⟩

end Attempt

end TrafficGate
