import TrafficGate.Report
import TrafficGate.Settings.Basic
/-!
# Services

What the program leaves to others: log lines and reports of its own errors,
metrics, the connections to the API, the waiting for them, and the writing of
a report as text. Whether one of them can be had depends on more than the
settings (a host without an address, a socket that is taken), so it is told
from outside, and `Services` has the answers.
-/

namespace TrafficGate

/-- Why metrics cannot be sent. -/
inductive MetricsFault where
  | recorder (reason : String)
  | alreadyInstalled
  deriving DecidableEq, Repr, Inhabited

/-- What is told of the fault. -/
def MetricsFault.message : MetricsFault → String
  | recorder reason => "could not build statsd recorder: " ++ reason
  | alreadyInstalled => "a global metrics recorder is already installed"

/-- What comes of starting each of the services, and of writing a report. -/
structure Services where
  /-- Log lines and reports of errors. The program breaks off if they cannot
  be set up. -/
  logging : LoggingSettings → Bool
  metrics : MetricsSettings → Except MetricsFault Unit
  connections : ApiSettings → Except ApiError Unit
  /-- What waits for answers; the reason if it does not start. -/
  runtime : Except String Unit
  /-- The writing of a report; the reason if it has no text. -/
  encoding : Report → Except String Unit

namespace Services

/-- Every report has a text. A writer of JSON refuses a value only for a key
that is no text, or if the value itself refuses to be written; neither is in
a report. -/
def Encodes (s : Services) : Prop := ∀ report, s.encoding report = .ok ()

/-! ## Without a network -/

/-- Whether a URL names a project at a service for error reports: it has a
user name and a path that does not only consist of slashes. -/
def isReportUrl (u : Url) : Bool :=
  (u.scheme = "http" || u.scheme = "https") && !u.username.isEmpty &&
    !(u.pathText.toList.all (· = '/'))

/-- Services that only look at their settings: no address is looked up, and
nothing is connected. An empty address for error reports switches them off. -/
def offline : Services where
  logging s := s.sentryDsn.all fun dsn => dsn.isEmpty || (Url.ofString? dsn).any isReportUrl
  metrics m :=
    if Text.isAllBlank m.host then .error (.recorder "Empty hostname is not allowed")
    else if m.port = 0 then .error (.recorder "Port number must be nonzero")
    else .ok ()
  connections _ := .ok ()
  runtime := .ok ()
  encoding _ := .ok ()

end Services

end TrafficGate
