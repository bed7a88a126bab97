import TrafficGate.Association.Settle
/-!
# The association resource

Associations are entries of the lists of projects. A create attaches a
filter, a delete detaches it, a read looks whether it is attached; no
attribute can be changed in place. An association whose project is gone
is gone with it.
-/

namespace TrafficGate

namespace AssociationResource

def typeName : String := "ec_serverless_traffic_filter_association"

/-- The project of an association, once its kind is known and there is a
client. -/
def projectOf (configured : Bool) (a : Association) : Attempt ProjectKey := do
  let kind ← a.kind
  Attempt.requireClient configured
  return ⟨kind, a.projectId⟩

/-! ## Attempts -/

def attemptCreate (configured : Bool) (plan : Association) :
    Attempt (Association × Diagnostics) := do
  let project ← projectOf configured plan
  let (_, warnings) ← project.ensurePresent plan.filterId
  return (plan.withId, warnings)

/-- Whether the association is there; not if its project is not. -/
def attemptRead (configured : Bool) (tracked : Association) : Attempt Bool := do
  let project ← projectOf configured tracked
  tryCatch (project.isPresent tracked.filterId) fun e =>
    match e with
    | .projectNotFound .. => return false
    | e => throw e

def attemptDelete (configured : Bool) (tracked : Association) : Attempt Diagnostics := do
  let project ← projectOf configured tracked
  let (_, warnings) ← project.ensureAbsent tracked.filterId
  return warnings

/-! ## Operations -/

/-- The filter is put on the list of the project, and the plan is tracked. -/
def create (configured : Bool) (plan : Association) (state : Option Association) :
    ApiM (Outcome Association) := do
  let problems := plan.validate
  if problems.hasError then return ⟨state, problems⟩
  match ← (attemptCreate configured plan).run with
  | .ok (model, warnings) => return ⟨some model, problems ++ warnings⟩
  | .error e => return ⟨state, problems ++ [e.diagnostic]⟩

/-- The association is tracked on if the filter is still on the list. -/
def read (configured : Bool) (state : Option Association) : ApiM (Outcome Association) := do
  match state with
  | none => return ⟨none, []⟩
  | some tracked =>
    match ← (attemptRead configured tracked).run with
    | .ok true => return ⟨state, []⟩
    | .ok false =>
      ApiM.count (Metric.membershipDrift.labelled "project_type" tracked.projectType)
      return ⟨none, []⟩
    | .error e => return ⟨state, [e.diagnostic]⟩

/-- No attribute of an association can be changed in place. -/
def update (_plan : Association) (state : Option Association) : ApiM (Outcome Association) :=
  return ⟨state, [ResourceError.updateNotSupported.diagnostic]⟩

/-- The filter is taken off the list of the project, and nothing is tracked. -/
def delete (configured : Bool) (state : Option Association) : ApiM (Outcome Association) := do
  match state with
  | none => return ⟨none, []⟩
  | some tracked =>
    match ← (attemptDelete configured tracked).run with
    | .ok warnings => return ⟨none, warnings⟩
    | .error e => return ⟨state, [e.diagnostic]⟩

/-- What a key names is tracked; what is no key leaves what is tracked. -/
def importState (key : String) (state : Option Association) : Outcome Association :=
  match ImportKey.ofString key with
  | .ok k => ⟨some (.ofKey k), []⟩
  | .error fault => ⟨state, [(ResourceError.importKey fault).diagnostic]⟩

end AssociationResource

/-- Associations as a resource, with or without a client to make calls
with. -/
def associationResource (configured : Bool) : Resource Association where
  typeName := AssociationResource.typeName
  create := AssociationResource.create configured
  read := AssociationResource.read configured
  update := AssociationResource.update
  delete := AssociationResource.delete configured
  importState := AssociationResource.importState

end TrafficGate
