import TrafficGate.Json.Basic
/-!
# Diagnostics

Operations do not fail, they report: what went wrong and what is worth a
warning is collected as a list of diagnostics, in the order in which it
came up. An operation stops at its first error.
-/

namespace TrafficGate

/-- How serious a diagnostic is. -/
inductive Severity where
  | error
  | warning
  deriving DecidableEq, Repr, Inhabited

def Severity.name : Severity → String
  | error => "error"
  | warning => "warning"

/-- A problem told to the user. -/
structure Diagnostic where
  severity : Severity
  summary : String
  detail : String
  deriving DecidableEq, Repr, Inhabited

namespace Diagnostic

def error (summary detail : String) : Diagnostic := ⟨.error, summary, detail⟩

def warning (summary detail : String) : Diagnostic := ⟨.warning, summary, detail⟩

def isError (d : Diagnostic) : Bool := d.severity = .error

/-- The diagnostic on one line. -/
def line (d : Diagnostic) : String := d.severity.name ++ ": " ++ d.summary ++ ": " ++ d.detail

def toJson (d : Diagnostic) : Json :=
  .object [("severity", .text d.severity.name), ("summary", .text d.summary),
    ("detail", .text d.detail)]

end Diagnostic

/-- Problems in the order in which they came up. -/
abbrev Diagnostics := List Diagnostic

namespace Diagnostics

def hasError (ds : Diagnostics) : Bool := ds.any Diagnostic.isError

def errors (ds : Diagnostics) : Diagnostics := ds.filter Diagnostic.isError

def warnings (ds : Diagnostics) : Diagnostics := ds.filter fun d => !d.isError

def toJson (ds : Diagnostics) : Json := .list (ds.map Diagnostic.toJson)

end Diagnostics

end TrafficGate
