import TrafficGate.Dialogue
import TrafficGate.Json.Fault
import TrafficGate.Metric
import TrafficGate.Project
import TrafficGate.Status
import TrafficGate.Text.Utf8
/-!
# The API

The calls that operations make, and what can come of them. An operation
is a dialogue whose questions are calls; it also counts what it does,
which is a question with a trivial answer.
-/

namespace TrafficGate

/-- Why a request could not be sent or got no answer. -/
inductive TransportFault where
  /-- The request did not reach the server, or no answer came back. -/
  | unanswered (url : String)
  /-- The request cannot be written down. -/
  | unwritable
  /-- The URL is not of a kind that requests go to. -/
  | unsupported (url : String)
  /-- A response came back with this status, but its body broke off. The
  network says why. -/
  | cutShort (status : Status) (reason : String)
  deriving DecidableEq, Repr, Inhabited

def TransportFault.message : TransportFault → String
  | unanswered url => "error sending request for url (" ++ url ++ ")"
  | unwritable => "builder error"
  | unsupported url => "builder error for url (" ++ url ++ ")"
  | cutShort _ reason => reason

/-- Why a call has no response. -/
inductive ApiError where
  | transport (fault : TransportFault)
  | invalidUrl (text : String)
  | json (fault : Json.Fault)
  deriving DecidableEq, Repr, Inhabited

def ApiError.message : ApiError → String
  | transport fault => "HTTP client error: " ++ fault.message
  | invalidUrl text => "invalid URL: " ++ text
  | json fault => "JSON error: " ++ fault.message

/-- A response. Its payload is there only when the status is the one that
means success for the call; the bytes of the body are always kept. -/
structure Response (α : Type) where
  status : Status
  payload : Option α
  body : List UInt8

namespace Response

variable {α : Type}

/-- The status as a person reads it. -/
def statusLine (r : Response α) : String := r.status.line

/-- The body as a person reads it. -/
def bodyText (r : Response α) : String := Utf8.lossy r.body

end Response

/-- A call of the API. -/
inductive Call where
  | getProject (kind : ProjectKind) (id : String)
  | patchProject (kind : ProjectKind) (id : String) (patch : ProjectPatch)
  | createFilter (creation : FilterCreation)
  | getFilter (id : String)
  | patchFilter (id : String) (patch : FilterPatch)
  /-- A response to this call has no payload. -/
  | deleteFilter (id : String)
  deriving DecidableEq, Repr, Inhabited

namespace Call

/-- What a successful response to a call carries. -/
def Payload : Call → Type
  | getProject .. => Project
  | patchProject .. => Project
  | createFilter .. => FilterInfo
  | getFilter .. => FilterInfo
  | patchFilter .. => FilterInfo
  | deleteFilter .. => Empty

/-- How a payload is read. -/
def codec? : (c : Call) → Option (Json.Codec c.Payload)
  | getProject kind _ => some (Project.codec kind)
  | patchProject kind _ _ => some (Project.codec kind)
  | createFilter _ => some FilterInfo.codec
  | getFilter _ => some FilterInfo.codec
  | patchFilter _ _ => some FilterInfo.codec
  | deleteFilter _ => none

/-- The body that goes out with a call. -/
def body? : Call → Option Json
  | patchProject _ _ patch => some patch.toJson
  | createFilter creation => some creation.toJson
  | patchFilter _ patch => some patch.toJson
  | _ => none

/-- What comes of a call. -/
def Outcome (c : Call) : Type := Except ApiError (Response c.Payload)

end Call

namespace Api

/-- What an operation asks. -/
inductive Question where
  | call (c : Call)
  | count (s : Sample)
  deriving DecidableEq, Repr, Inhabited

/-- What it gets to know. -/
def Answer : Question → Type
  | .call c => c.Outcome
  | .count _ => Unit

end Api

/-- A computation over the API. -/
abbrev ApiM (α : Type) := Dialogue Api.Question Api.Answer α

namespace ApiM

/-- Makes a call. -/
def call (c : Call) : ApiM c.Outcome := Dialogue.question (Api.Question.call c)

/-- Counts an occurrence. -/
def count (s : Sample) : ApiM Unit := Dialogue.question (Api.Question.count s)

end ApiM

end TrafficGate
