import TrafficGate.CommandLine.Command
import TrafficGate.Files
import TrafficGate.InlineFilters
import TrafficGate.Report
import TrafficGate.Resource.Association
import TrafficGate.Resource.Filter
/-!
# Commands carried out

A command is one operation of a resource, on what it tracks: nothing for
a create or an import, and otherwise what the command line names. An
update reads the filter first, and an import is followed by a read. The
outcome is a report, unless the model file of the command is no model.
-/

namespace TrafficGate

/-- Why there is no report. -/
inductive RunFault where
  | openModel (path reason : String)
  | parseModel (path reason : String)
  | encodeReport (reason : String)
  deriving DecidableEq, Repr, Inhabited

/-- What is told of the fault. -/
def RunFault.message : RunFault → String
  | openModel path reason => "could not open model file " ++ path ++ ": " ++ reason
  | parseModel path reason => "could not parse model file " ++ path ++ ": " ++ reason
  | encodeReport reason => "could not encode report: " ++ reason

namespace Run

/-- The model that a file declares. -/
def loadModel (files : Files) (path : String) : Except RunFault FilterModel :=
  ((files.fileAt path).document files.model).mapError fun
    | .unopened reason => .openModel path reason
    | .unparsed reason => .parseModel path reason

/-- Starts tracking what a key names, and reads it. -/
def importAndRead {M : Type} (r : Resource M) (key : String) : ApiM (Outcome M) := do
  let imported := r.importState key none
  if imported.diagnostics.hasError then return imported
  let outcome ← r.read imported.state
  return ⟨outcome.state, imported.diagnostics ++ outcome.diagnostics⟩

/-- Reads a filter and changes it as planned. The plan is for the filter
of the given id, whatever id it carries. -/
def readAndUpdate (r : Resource FilterModel) (id : String) (plan : FilterModel) :
    ApiM (Outcome FilterModel) := do
  let found ← r.read (some (.imported id))
  if found.diagnostics.hasError then return found
  if found.state.isNone then
    return ⟨none, found.diagnostics ++ [(ResourceError.filterNotFound id).diagnostic]⟩
  let outcome ← r.update { plan with id := some id } found.state
  return ⟨outcome.state, found.diagnostics ++ outcome.diagnostics⟩

/-- Carries out a command on a filter. -/
def filter (r : Resource FilterModel) (files : Files) :
    FilterCommand → Except RunFault (ApiM (Outcome FilterModel))
  | .create file => do
    let plan ← loadModel files file
    .ok (r.create plan none)
  | .read id => .ok (r.read (some (.imported id)))
  | .update id file => do
    let plan ← loadModel files file
    .ok (readAndUpdate r id plan)
  | .delete id => .ok (r.delete (some (.imported id)))
  | .importId id => .ok (importAndRead r id)

/-- The association that the command line names. -/
def associationOf (a : AssociationArgs) : Association :=
  { projectId := a.projectId, projectType := a.projectType, filterId := a.filterId }

/-- Carries out a command on an association. -/
def association (r : Resource Association) : AssociationCommand → ApiM (Outcome Association)
  | .create args => r.create (associationOf args) none
  | .read args => r.read (some (associationOf args).withId)
  | .delete args => r.delete (some (associationOf args).withId)
  | .importKey key => importAndRead r key

/-- The filters of a project, as reports hold them. -/
def projectState (projectId : String) (kind : ProjectKind) (filters : Option (List String)) :
    Json :=
  .object
    [("project_id", .text projectId), ("project_type", .text kind.name),
      ("traffic_filters", (filters.map Json.ofTexts).getD .null)]

/-- Looks up the filters of a project. -/
def projectFilters (projectId projectType : String) : ApiM Report := do
  match ProjectKind.ofName? projectType with
  | none => return failed (.unknownKind projectType)
  | some kind =>
    match ← (InlineFilters.fetch ⟨kind, projectId⟩).run with
    | .ok filters =>
      return ⟨"project", some (projectState projectId kind filters).ordered, []⟩
    | .error e => return failed e
where
  failed (e : ResourceError) : Report := ⟨"project", none, [e.diagnostic]⟩

end Run

/-- Carries out a command. -/
def Command.run (files : Files) : Command → Except RunFault (ApiM Report)
  | .filter c => do
    let r := filterResource true
    let operation ← Run.filter r files c
    .ok (do return .ofOutcome r.typeName FilterModel.codec (← operation))
  | .association c =>
    let r := associationResource true
    .ok (do return .ofOutcome r.typeName Association.codec (← Run.association r c))
  | .project (.filters projectId projectType) => .ok (Run.projectFilters projectId projectType)

end TrafficGate
