import TrafficGate.Api
import TrafficGate.Association.ImportKey
import TrafficGate.Diagnostic
/-!
# Errors of operations

Why an operation could not be done. Each error is of a category, has a
message of its own, and becomes one diagnostic for the user.
-/

namespace TrafficGate

/-- What an operation was doing when a call failed. -/
inductive Action where
  | readProject
  | updateProject
  | createFilter
  | readFilter
  | updateFilter
  | deleteFilter
  deriving DecidableEq, Repr, Inhabited

/-- The summary of a failed action. -/
def Action.summary : Action → String
  | readProject => "Failed to read project"
  | updateProject => "Failed to update project"
  | createFilter => "Failed to create traffic filter"
  | readFilter => "Failed to read traffic filter"
  | updateFilter => "Failed to update traffic filter"
  | deleteFilter => "Failed to delete traffic filter"

/-- Broad classes of errors. -/
inductive ErrorCategory where
  | notFound
  | invalidInput
  | transportFailure
  | unexpectedResponse
  | logicError
  deriving DecidableEq, Repr, Inhabited

/-- Why an operation could not be done. -/
inductive ResourceError where
  | projectNotFound (kind : ProjectKind) (id : String)
  | filterNotFound (id : String)
  | unknownKind (given : String)
  | importKey (fault : ImportKey.Fault)
  | invalidAttribute (name message : String)
  | transport (action : Action) (cause : ApiError)
  | unexpected (action : Action) (statusLine body : String)
  | updateNotSupported
  | replacementRequired (attributes : List String)
  | unconfigured
  deriving DecidableEq, Repr, Inhabited

namespace ResourceError

/-- The error of a response that means no success. -/
def ofResponse {α : Type} (action : Action) (r : Response α) : ResourceError :=
  unexpected action r.statusLine r.bodyText

def message : ResourceError → String
  | projectNotFound kind id => kind.title ++ " project " ++ id ++ " not found"
  | filterNotFound id => "traffic filter " ++ id ++ " not found"
  | unknownKind given => ProjectKind.unknownMessage given
  | importKey fault => fault.message
  | invalidAttribute name message => name ++ ": " ++ message
  | transport action cause => action.summary ++ ": " ++ cause.message
  | unexpected action statusLine _ =>
    action.summary ++ ": the API request failed with: " ++ statusLine
  | updateNotSupported =>
    "update not supported: all attributes of this resource require replacement"
  | replacementRequired attributes =>
    "attributes require replacement and cannot be updated in place: " ++
      ", ".intercalate attributes
  | unconfigured => "API client not configured"

def category : ResourceError → ErrorCategory
  | projectNotFound .. | filterNotFound .. => .notFound
  | unknownKind .. | importKey .. | invalidAttribute .. => .invalidInput
  | transport .. => .transportFailure
  | unexpected .. => .unexpectedResponse
  | updateNotSupported | replacementRequired .. | unconfigured => .logicError

/-- The error as it is told to the user. -/
def diagnostic (e : ResourceError) : Diagnostic :=
  match e with
  | projectNotFound .. => .error "Project not found" e.message
  | filterNotFound .. => .error "Traffic filter not found" e.message
  | unknownKind .. => .error "Invalid project type" e.message
  | importKey fault => .error fault.summary fault.message
  | invalidAttribute .. => .error "Invalid attribute value" e.message
  | transport action cause => .error action.summary cause.message
  | unexpected action statusLine body =>
    .error action.summary ("The API request failed with: " ++ statusLine ++ "\n" ++ body)
  | updateNotSupported =>
    .error "Update not supported" <|
      "All attributes of this resource require replacement, so an in-place update " ++
      "should never be requested. This is a bug in the lifecycle driver."
  | replacementRequired .. =>
    .error "Replacement required" <|
      e.message ++ ". The resource must be destroyed and recreated; an in-place update " ++
      "request indicates a bug in the lifecycle driver."
  | unconfigured =>
    .error "Unconfigured API Client" <|
      "Expected configured API client. " ++
      "Please report this issue to the provider developers."

end ResourceError

end TrafficGate
