import TrafficGate.Json.Printer
import TrafficGate.Resource.Basic
/-!
# Reports

What a command tells at its end: the resource it was about, what is
tracked of it now, and the diagnostics.
-/

namespace TrafficGate

structure Report where
  resource : String
  state : Option Json
  diagnostics : Diagnostics
  deriving Repr, Inhabited

namespace Report

/-- The report of an operation on a resource. -/
def ofOutcome {M : Type} (resource : String) (codec : Json.Codec M) (o : Outcome M) : Report :=
  ⟨resource, o.state.map fun m => (codec.encode m).ordered, o.diagnostics⟩

def hasError (r : Report) : Bool := r.diagnostics.hasError

def toJson (r : Report) : Json :=
  .object
    [("resource", .text r.resource), ("state", r.state.getD .null),
      ("diagnostics", r.diagnostics.toJson)]

/-- The text of a report. -/
def text (r : Report) : String := r.toJson.indented

end Report

end TrafficGate
