import TrafficGate.Api
import TrafficGate.ResourceError
/-!
# Resources

A resource is a kind of thing whose instances are created, read, changed
and deleted through the API while a driver keeps track of what is known
of each. An operation takes the tracked model, if there is one, and gives
the model to be tracked from then on, with diagnostics. Whatever fails
leaves the tracked model as it was.
-/

namespace TrafficGate

/-- A computation over the API that can fail. -/
abbrev Attempt (α : Type) := ExceptT ResourceError ApiM α

namespace Attempt

/-- Makes a call in the course of an action. -/
def call (action : Action) (c : Call) : Attempt (Response c.Payload) :=
  ExceptT.mk do
    match ← ApiM.call c with
    | .ok r => return .ok r
    | .error e => return .error (.transport action e)

/-- Counts an occurrence. -/
def count (s : Sample) : Attempt Unit := ExceptT.lift (ApiM.count s)

/-- Goes on only if there is a client to make calls with. -/
def requireClient (configured : Bool) : Attempt Unit :=
  if configured then pure () else throw .unconfigured

end Attempt

/-- What is tracked after an operation, and what it has to report. -/
structure Outcome (M : Type) where
  state : Option M
  diagnostics : Diagnostics
  deriving DecidableEq, Repr, Inhabited

/-- The operations on instances with models of type `M`. -/
structure Resource (M : Type) where
  typeName : String
  create : M → Option M → ApiM (Outcome M)
  read : Option M → ApiM (Outcome M)
  update : M → Option M → ApiM (Outcome M)
  delete : Option M → ApiM (Outcome M)
  /-- Starts tracking what an external key names; a read should follow. -/
  importState : String → Option M → Outcome M

end TrafficGate
