import TrafficGate.Association.Basic
import TrafficGate.Membership
import TrafficGate.Resource.Basic
/-!
# Settling one entry of a project's list

There is no call that adds or removes a single filter of a project. The
whole list is read, changed by one entry, and written back, unless it was
right already. Whoever writes last wins, and the API has no way to tell
beforehand; so the membership that the server reports after a write is
compared with the one that was written, and a difference is a warning.
-/

namespace TrafficGate

/-- What came of settling an entry. -/
inductive Transition where
  | added
  | alreadyPresent
  | removed
  | alreadyAbsent
  deriving DecidableEq, Repr, Inhabited

/-- A list of filters that the API embeds in the record of a project. -/
structure ProjectKey where
  kind : ProjectKind
  id : String
  deriving DecidableEq, Repr, Inhabited

namespace ProjectKey

/-- The membership that a response reports. -/
def membershipOf (p : ProjectKey) (action : Action) (r : Response Project) :
    Except ResourceError Membership :=
  if r.status = .notFound then .error (.projectNotFound p.kind p.id)
  else
    match r.payload with
    | none => .error (.ofResponse action r)
    | some project => .ok (.ofFilters project.filters)

/-- Reads the membership of a project. -/
def fetchMembership (p : ProjectKey) : Attempt Membership := do
  let response ← Attempt.call .readProject (.getProject p.kind p.id)
  p.membershipOf .readProject response

/-- Writes the membership of a project: the one that the server reports
afterwards. -/
def storeMembership (p : ProjectKey) (m : Membership) : Attempt Membership := do
  let response ← Attempt.call .updateProject (.patchProject p.kind p.id ⟨some m.toFilters⟩)
  p.membershipOf .updateProject response

/-! ## One entry -/

/-- The label under which a project's kind is counted. -/
def counted (p : ProjectKey) (m : Metric) : Sample := m.labelled "project_type" p.kind.name

/-- The warning about a membership that is not the one written. -/
def concurrentChange (p : ProjectKey) (reported written : Membership) : Diagnostic :=
  .warning "Concurrent traffic filter modification" <|
    "The " ++ p.kind.title ++ " project " ++ p.id ++ " reported traffic filters [" ++
    reported.wording ++ "] after [" ++ written.wording ++ "] was written. " ++
    "Another writer changed the project's traffic filters between the read and " ++
    "the write; the last write wins, so a concurrent change may have been lost."

/-- Writes a membership and compares it with the one reported. -/
def write (p : ProjectKey) (target : Membership) : Attempt Diagnostics := do
  let reported ← p.storeMembership target
  Attempt.count (p.counted .membershipWrite)
  if reported.agrees target then return []
  Attempt.count (p.counted .concurrentModification)
  return [p.concurrentChange reported target]

/-- Whether a filter is attached to the project. -/
def isPresent (p : ProjectKey) (filterId : String) : Attempt Bool := do
  let current ← p.fetchMembership
  return current.contains filterId

/-- Attaches a filter to the project. -/
def ensurePresent (p : ProjectKey) (filterId : String) : Attempt (Transition × Diagnostics) := do
  let current ← p.fetchMembership
  match current.add? filterId with
  | some target =>
    let warnings ← p.write target
    return (.added, warnings)
  | none =>
    Attempt.count (p.counted .membershipNoop)
    return (.alreadyPresent, [])

/-- Detaches a filter from the project. -/
def ensureAbsent (p : ProjectKey) (filterId : String) : Attempt (Transition × Diagnostics) := do
  let current ← p.fetchMembership
  match current.remove? filterId with
  | some target =>
    let warnings ← p.write target
    return (.removed, warnings)
  | none =>
    Attempt.count (p.counted .membershipNoop)
    return (.alreadyAbsent, [])

end ProjectKey

end TrafficGate
