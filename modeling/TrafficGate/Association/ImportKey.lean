import TrafficGate.ProjectKind
import TrafficGate.Text.Split
/-!
# Import keys

An association that exists already is named by a key of three parts:
project id, project kind and filter id, with a comma between them.
`ofString` reads a key and `text` writes it.
-/

namespace TrafficGate

/-- The key of an association. -/
structure ImportKey where
  projectId : String
  kind : ProjectKind
  filterId : String
  deriving DecidableEq, Repr, Inhabited

namespace ImportKey

/-- Why a text is no key. -/
inductive Fault where
  /-- Not three parts, or an empty one; the whole text. -/
  | format (text : String)
  /-- The middle part names no kind. -/
  | unknownKind (given : String)
  deriving DecidableEq, Repr, Inhabited

namespace Fault

def message : Fault → String
  | format text => "Expected format: project_id,project_type,traffic_filter_id. Got: " ++ text
  | unknownKind given => ProjectKind.unknownMessage given

def summary : Fault → String
  | format _ => "Invalid import ID"
  | unknownKind _ => "Invalid project type"

end Fault

/-- Reads a key. -/
def ofString (s : String) : Except Fault ImportKey :=
  match Text.split (· = ',') s.toList with
  | [p, k, f] =>
    if p.isEmpty || k.isEmpty || f.isEmpty then .error (.format s)
    else
      match ProjectKind.ofName? (String.ofList k) with
      | some kind => .ok ⟨String.ofList p, kind, String.ofList f⟩
      | none => .error (.unknownKind (String.ofList k))
  | _ => .error (.format s)

/-- The text of a key. -/
def text (k : ImportKey) : String := k.projectId ++ "," ++ k.kind.name ++ "," ++ k.filterId

end ImportKey

end TrafficGate
