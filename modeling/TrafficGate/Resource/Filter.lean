import TrafficGate.Filter.Model
import TrafficGate.Resource.Basic
/-!
# The traffic filter resource

Filters are entities of their own: every operation is at most one call,
and its status decides. A filter that the server does not know is gone
for a read and deleted for a delete.
-/

namespace TrafficGate

namespace FilterResource

def typeName : String := "ec_serverless_traffic_filter"

/-- The payload of a response with the expected status. -/
def expectInfo (action : Action) (expected : Status) (r : Response FilterInfo) :
    Except ResourceError FilterInfo :=
  match r.payload with
  | some info => if r.status = expected then .ok info else .error (.ofResponse action r)
  | none => .error (.ofResponse action r)

/-- The id of a tracked filter. -/
def trackedId (tracked : FilterModel) : Except ResourceError String :=
  match tracked.id with
  | some id => .ok id
  | none => .error (.invalidAttribute "id" "traffic filter has no id in state")

/-! ## Attempts -/

def attemptCreate (configured : Bool) (plan : FilterModel) : Attempt FilterModel := do
  Attempt.requireClient configured
  let response ← Attempt.call .createFilter (.createFilter plan.creation)
  let info ← expectInfo .createFilter .created response
  return .ofInfo info

/-- Nothing when the server does not know the filter. -/
def attemptRead (configured : Bool) (tracked : FilterModel) : Attempt (Option FilterModel) := do
  let id ← trackedId tracked
  Attempt.requireClient configured
  let response ← Attempt.call .readFilter (.getFilter id)
  if response.status = .notFound then return none
  let info ← expectInfo .readFilter .ok response
  return some (.ofInfo info)

def attemptUpdate (configured : Bool) (plan tracked : FilterModel) : Attempt FilterModel := do
  let replaced := plan.replacedAttributes tracked
  unless replaced.isEmpty do
    throw (.replacementRequired (replaced.map FixedAttribute.name))
  let id ← trackedId tracked
  Attempt.requireClient configured
  let response ← Attempt.call .updateFilter (.patchFilter id plan.patch)
  if response.status = .notFound then throw (.filterNotFound id)
  let info ← expectInfo .updateFilter .ok response
  return .ofInfo info

def attemptDelete (configured : Bool) (tracked : FilterModel) : Attempt Unit := do
  let id ← trackedId tracked
  Attempt.requireClient configured
  let response ← Attempt.call .deleteFilter (.deleteFilter id)
  unless response.status ∈ [Status.ok, .noContent, .notFound] do
    throw (.ofResponse .deleteFilter response)

/-! ## Operations -/

/-- A new filter. A plan with a problem is not sent, and leaves what is
tracked. -/
def create (configured : Bool) (plan : FilterModel) (state : Option FilterModel) :
    ApiM (Outcome FilterModel) := do
  let problems := plan.validate
  if problems.hasError then return ⟨state, problems⟩
  match ← (attemptCreate configured plan).run with
  | .ok model => return ⟨some model, problems⟩
  | .error e => return ⟨state, problems ++ [e.diagnostic]⟩

/-- What the API has of the tracked filter is tracked from then on. Where
nothing is tracked there is nothing to read. -/
def read (configured : Bool) (state : Option FilterModel) : ApiM (Outcome FilterModel) := do
  match state with
  | none => return ⟨none, []⟩
  | some tracked =>
    match ← (attemptRead configured tracked).run with
    | .ok (some model) => return ⟨some model, []⟩
    | .ok none =>
      ApiM.count Metric.filterRemoved.sample
      return ⟨none, []⟩
    | .error e => return ⟨state, [e.diagnostic]⟩

/-- A tracked filter becomes the planned one, if it can be changed in place. -/
def update (configured : Bool) (plan : FilterModel) (state : Option FilterModel) :
    ApiM (Outcome FilterModel) := do
  let problems := plan.validate
  if problems.hasError then return ⟨state, problems⟩
  match state with
  | none =>
    let e := ResourceError.invalidAttribute "id" "traffic filter is not tracked"
    return ⟨none, problems ++ [e.diagnostic]⟩
  | some tracked =>
    if plan.planChange tracked = .none then return ⟨state, problems⟩
    match ← (attemptUpdate configured plan tracked).run with
    | .ok model => return ⟨some model, problems⟩
    | .error e => return ⟨state, problems ++ [e.diagnostic]⟩

/-- The tracked filter is deleted, and nothing is tracked then. -/
def delete (configured : Bool) (state : Option FilterModel) : ApiM (Outcome FilterModel) := do
  match state with
  | none => return ⟨none, []⟩
  | some tracked =>
    match ← (attemptDelete configured tracked).run with
    | .ok _ => return ⟨none, []⟩
    | .error e => return ⟨state, [e.diagnostic]⟩

/-- What an id names is tracked. The next read fills in the rest. -/
def importState (id : String) (_state : Option FilterModel) : Outcome FilterModel :=
  ⟨some (.imported id), []⟩

end FilterResource

/-- Filters as a resource, with or without a client to make calls with. -/
def filterResource (configured : Bool) : Resource FilterModel where
  typeName := FilterResource.typeName
  create := FilterResource.create configured
  read := FilterResource.read configured
  update := FilterResource.update configured
  delete := FilterResource.delete configured
  importState := FilterResource.importState

end TrafficGate
