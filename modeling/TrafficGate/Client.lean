import TrafficGate.Api
import TrafficGate.Duration
import TrafficGate.Json.Codec
import TrafficGate.Url.Parse
/-!
# The client of the API

How a call becomes requests over HTTP. Each call has one method, one URL
and one status that means success. A request whose response asks for
patience is sent again after a pause that doubles each time, unless it
creates something; what comes of the last request comes of the call. The
body of a response is decoded only under the status of success.
-/

namespace TrafficGate

/-! ## Requests -/

inductive Method where
  | get
  | post
  | patch
  | delete
  deriving DecidableEq, Repr, Inhabited

def Method.name : Method → String
  | get => "GET"
  | post => "POST"
  | patch => "PATCH"
  | delete => "DELETE"

/-- A request. It asks for JSON, and a body of it is JSON. -/
structure Request where
  method : Method
  url : Url
  authorization : String
  body : Option String
  deriving DecidableEq, Repr, Inhabited

/-- The status and the body of a response. -/
abbrev RawResponse := Status × List UInt8

/-- What an exchange of messages comes to. -/
abbrev Exchange := Except TransportFault RawResponse

namespace Http

/-- The status that came back, if one did. It is there before the body, and
also if the body breaks off. -/
def status? : Exchange → Option Status
  | .ok response => some response.1
  | .error (.cutShort status _) => some status
  | .error _ => none

/-- What a client asks of the network and of the clock. -/
inductive Question where
  | exchange (request : Request)
  | pause (milliseconds : Nat)
  | count (s : Sample)
  deriving DecidableEq, Repr, Inhabited

/-- What it gets to know. -/
def Answer : Question → Type
  | .exchange _ => Exchange
  | .pause _ => Unit
  | .count _ => Unit

end Http

/-- A computation over HTTP. -/
abbrev HttpM (α : Type) := Dialogue Http.Question Http.Answer α

namespace HttpM

def exchange (r : Request) : HttpM Exchange := Dialogue.question (Http.Question.exchange r)

def pause (milliseconds : Nat) : HttpM Unit :=
  Dialogue.question (Http.Question.pause milliseconds)

def count (s : Sample) : HttpM Unit := Dialogue.question (Http.Question.count s)

end HttpM

/-! ## What a call asks for -/

namespace Call

def method : Call → Method
  | getProject .. => .get
  | patchProject .. => .patch
  | createFilter .. => .post
  | getFilter .. => .get
  | patchFilter .. => .patch
  | deleteFilter .. => .delete

/-- The segments of the URL behind those that all calls share. -/
def segments : Call → List String
  | getProject kind id => ["projects", kind.name, id]
  | patchProject kind id _ => ["projects", kind.name, id]
  | createFilter _ => ["traffic-filters"]
  | getFilter id => ["traffic-filters", id]
  | patchFilter id _ => ["traffic-filters", id]
  | deleteFilter id => ["traffic-filters", id]

/-- The status under which a response carries its payload. -/
def successStatus : Call → Status
  | createFilter _ => .created
  | _ => .ok

end Call

/-! ## The client -/

/-- Where requests go, and how often they are repeated. -/
structure Client where
  endpoint : Url
  apiKey : String
  maxRetries : Nat
  baseDelay : Nat
  deriving DecidableEq, Repr, Inhabited

namespace Client

/-- The segments that all URLs of the API begin with. -/
def commonSegments : List String := ["api", "v1", "serverless"]

/-- The URL of a list of segments. -/
def url (endpoint : Url) (segments : List String) : Except ApiError Url :=
  match endpoint.extend? (commonSegments ++ segments) with
  | some u => .ok u
  | none => .error (.invalidUrl endpoint.text)

/-- The longest pause between two requests, in milliseconds. -/
def maxPause : Nat := 30000

/-- How many times the base delay is waited after so many repetitions:
doubled for each of them, within thirty-two bits. -/
def growth (retry : Nat) : UInt32 :=
  UInt32.ofNat (if retry < 32 then Nat.pow 2 retry else UInt32.size - 1)

/-- How long to wait before a repetition, if so many went before. -/
def delay (base : UInt64) (retry : Nat) : Duration :=
  ((Duration.ofMillis base).times (growth retry)).shorter
    (Duration.ofMillis (UInt64.ofNat maxPause))

/-- The pause before a repetition, in milliseconds. -/
def backoff (base retry : Nat) : Nat := (delay (UInt64.ofNat base) retry).millis

/-- Whether a text can stand in a header. -/
def isHeaderText (s : String) : Bool :=
  s.toList.all fun c => c = '\t' || (0x20 ≤ c.toNat && c.toNat ≠ 0x7F)

/-- Why a request cannot be sent at all. -/
def unsendable? (r : Request) : Option TransportFault :=
  if !isHeaderText r.authorization then some .unwritable
  else if r.url.scheme ≠ "http" && r.url.scheme ≠ "https" then
    some (.unsupported r.url.withoutCredentials.text)
  else none

/-- Whether a request may be sent again: what creates something may not,
since it may have been done although no good answer came back. -/
def mayRepeat (m : Method) : Bool := m ≠ .post

/-- Whether a request is to be sent again after an exchange. The status
alone decides: the body is not waited for. -/
def asksAgain (r : Request) (x : Exchange) : Bool :=
  mayRepeat r.method && (Http.status? x).any Status.isRetriable

/-- Counts how long it took until a response came back, if one did. -/
def measure (r : Request) (x : Exchange) : HttpM Unit :=
  match Http.status? x with
  | some _ => HttpM.count (Metric.requestDuration.labelled "method" r.method.name)
  | none => return ()

/-- Sends a request until its response stands. The first number counts
the repetitions so far and the second those that are still allowed. -/
def sendFrom (base : Nat) (r : Request) (retries : Nat) : Nat → HttpM Exchange
  | 0 => do
    let x ← HttpM.exchange r
    measure r x
    return x
  | allowed + 1 => do
    let x ← HttpM.exchange r
    measure r x
    if asksAgain r x then
      HttpM.count Metric.requestRetry.sample
      HttpM.pause (backoff base retries)
      sendFrom base r (retries + 1) allowed
    else return x

/-- Sends a request, if it can be sent. -/
def send (client : Client) (r : Request) : HttpM Exchange :=
  match unsendable? r with
  | some fault => return .error fault
  | none => sendFrom client.baseDelay r 0 client.maxRetries

/-- The request of a call. -/
def request (client : Client) (c : Call) : Except ApiError Request := do
  let u ← url client.endpoint c.segments
  .ok
    { method := c.method
      url := u
      authorization := "ApiKey " ++ client.apiKey
      body := c.body?.map Json.compact }

/-- What a response means for a call. -/
def interpret (c : Call) (raw : RawResponse) : c.Outcome :=
  match c.codec? with
  | none => .ok ⟨raw.1, none, raw.2⟩
  | some codec =>
    if raw.1 = c.successStatus then
      match codec.ofBytes raw.2 with
      | .ok payload => .ok ⟨raw.1, some payload, raw.2⟩
      | .error fault => .error (.json fault)
    else .ok ⟨raw.1, none, raw.2⟩

/-- Makes a call. -/
def perform (client : Client) (c : Call) : HttpM c.Outcome :=
  match client.request c with
  | .error e => return .error e
  | .ok r => do
    match ← client.send r with
    | .error fault => return .error (.transport fault)
    | .ok raw => return interpret c raw

/-- Answers the questions of an operation by requests. -/
def answer (client : Client) : (q : Api.Question) → HttpM (Api.Answer q)
  | .call c => client.perform c
  | .count s => HttpM.count s

/-- An operation over HTTP. -/
def carryOut {α : Type} (client : Client) (operation : ApiM α) : HttpM α :=
  operation.lower client.answer

end Client

end TrafficGate
