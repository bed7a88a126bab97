import TrafficGate.Association.Settle
/-!
# Filters declared on a project itself

A project may declare its filters as a set of its own, in place of
associations. Such a set is written in rising order of the ids, and an
empty one is as good as none: nothing is written then.
-/

namespace TrafficGate

namespace InlineFilters

/-- Puts an id where it belongs; one that is there already is not
repeated. -/
def insert (id : String) : List String → List String
  | [] => [id]
  | x :: rest =>
    if id < x then id :: x :: rest else if id = x then x :: rest else x :: insert id rest

/-- The ids of a list in rising order, each once. -/
def sorted (ids : List String) : List String := ids.foldr insert []

/-- The list that a declared set asks for. -/
def toFilters (declared : Option (List String)) : Option (List FilterRef) :=
  (declared.filter fun ids => !ids.isEmpty).map fun ids => ids.map FilterRef.mk

/-- The set that the list of a project amounts to. -/
def ofFilters (filters : Option (List FilterRef)) : Option (List String) :=
  (filters.filter fun fs => !fs.isEmpty).map fun fs => sorted (fs.map FilterRef.id)

/-- The set that a membership amounts to. -/
def ofMembership (m : Membership) : Option (List String) := ofFilters (some m.toFilters)

/-- The set that a project has. -/
def fetch (p : ProjectKey) : Attempt (Option (List String)) := do
  let current ← p.fetchMembership
  return ofMembership current

/-- Replaces the filters of a project by a declared set, and gives the set
that the project has then. Without a declared set it only reads. -/
def store (p : ProjectKey) (declared : Option (List String)) :
    Attempt (Option (List String)) := do
  match toFilters declared with
  | none => fetch p
  | some filters =>
    let reported ← p.storeMembership (.ofFilters (some filters))
    return ofMembership reported

end InlineFilters

end TrafficGate
