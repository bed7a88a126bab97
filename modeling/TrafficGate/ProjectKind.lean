/-!
# Project kinds

The three kinds of serverless project. Each has its own endpoint and its
own record, but all of them hold their traffic filters alike. A kind is
written by its `name`, in keys, on the command line and in records, and
by its `title` in messages.
-/

namespace TrafficGate

/-- A kind of serverless project. -/
inductive ProjectKind where
  | elasticsearch
  | observability
  | security
  deriving DecidableEq, Repr, Inhabited

namespace ProjectKind

def all : List ProjectKind := [elasticsearch, observability, security]

def name : ProjectKind → String
  | elasticsearch => "elasticsearch"
  | observability => "observability"
  | security => "security"

/-- The name for messages. -/
def title : ProjectKind → String
  | elasticsearch => "Elasticsearch"
  | observability => "Observability"
  | security => "Security"

/-- The kind of a name; the match is exact. -/
def ofName? (s : String) : Option ProjectKind := all.find? (·.name == s)

@[simp] theorem ofName?_name (k : ProjectKind) : ofName? k.name = some k := by
  cases k <;> rfl

/-- What is said of a name that is none. -/
def unknownMessage (given : String) : String :=
  "project_type must be one of: elasticsearch, observability, security. Got: " ++ given

end ProjectKind

end TrafficGate
