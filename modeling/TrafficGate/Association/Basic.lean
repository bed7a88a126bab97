import TrafficGate.Association.ImportKey
import TrafficGate.ResourceError
/-!
# Associations

An association attaches one filter to one project. The server knows no
such thing: an association is one entry in the list of filters of a
project, and its identity is made of the two ids.
-/

namespace TrafficGate

/-- A declared or tracked association. Every attribute but the id is fixed
for its lifetime. The project type is kept as it was declared. -/
structure Association where
  id : Option String := none
  projectId : String
  projectType : String
  filterId : String
  deriving DecidableEq, Repr, Inhabited

namespace Association

/-- What associations are. -/
def description : String :=
  "Manages the association between a traffic filter and a serverless " ++
  "project. Do not use this resource together with the \x60traffic_filters\x60 attribute of the " ++
  "project itself: both write the same list and will overwrite each other."

/-- The identity of an association. The kind of the project is no part of
it. -/
def identity (projectId filterId : String) : String := projectId ++ "-" ++ filterId

/-- The association with its identity filled in. -/
def withId (a : Association) : Association :=
  { a with id := some (identity a.projectId a.filterId) }

/-- The kind of the project, if the declared one is known. -/
def kind (a : Association) : Except ResourceError ProjectKind :=
  match ProjectKind.ofName? a.projectType with
  | some kind => .ok kind
  | none => .error (.unknownKind a.projectType)

/-- The association that an import key names. -/
def ofKey (k : ImportKey) : Association :=
  withId { projectId := k.projectId, projectType := k.kind.name, filterId := k.filterId }

/-- An attribute that must not be empty. -/
def emptyAttribute (name value : String) : Diagnostics :=
  if value.isEmpty then [(ResourceError.invalidAttribute name "must not be empty").diagnostic]
  else []

/-- Every problem of a declared association. -/
def validate (a : Association) : Diagnostics :=
  emptyAttribute "project_id" a.projectId ++
  (match a.kind with
    | .ok _ => []
    | .error e => [e.diagnostic]) ++
  emptyAttribute "traffic_filter_id" a.filterId

def codec : Json.Codec Association where
  shape := .record "AssociationModel" <|
    .field "id" false (.optional .text) <|
    .field "project_id" true .text <|
    .field "project_type" true .text <|
    .field "traffic_filter_id" true .text .done
  encode a := .object <|
    Json.member? "id" .text a.id ++
    [("project_id", .text a.projectId), ("project_type", .text a.projectType),
      ("traffic_filter_id", .text a.filterId)]
  ofCanonical x :=
    { id := x.textAt? "id"
      projectId := x.textAt "project_id"
      projectType := x.textAt "project_type"
      filterId := x.textAt "traffic_filter_id" }

end Association

end TrafficGate
