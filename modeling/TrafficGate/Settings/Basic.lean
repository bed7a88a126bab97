import TrafficGate.Client
import TrafficGate.Text.Blank
/-!
# Settings

Where the API is and how to reach it, and what is reported elsewhere. The
key of the API can be given in the environment, in place of the one in
the file. `ApiSettings.validate` holds the settings against what requests
can be made with.
-/

namespace TrafficGate

/-- How to reach the API. -/
structure ApiSettings where
  endpoint : Url
  apiKey : String
  timeoutSecs : Nat := 30
  maxRetries : Nat := 3
  retryBaseDelay : Nat := 500
  deriving DecidableEq, Repr, Inhabited

/-- What is logged, and where errors are reported. -/
structure LoggingSettings where
  level : String := "info"
  sentryDsn : Option String := none
  deriving DecidableEq, Repr, Inhabited

/-- Where metrics are sent. -/
structure MetricsSettings where
  host : String
  port : Nat
  namespaceName : String := "ecfilter"
  deriving DecidableEq, Repr, Inhabited

structure Settings where
  api : ApiSettings
  logging : LoggingSettings := {}
  metrics : Option MetricsSettings := none
  deriving DecidableEq, Repr, Inhabited

/-- With the key from the environment, if there is one. -/
def Settings.withApiKey (s : Settings) (key : Option String) : Settings :=
  match key with
  | some key => if key.isEmpty then s else { s with api := { s.api with apiKey := key } }
  | none => s

/-! ## What is accepted -/

/-- Why requests cannot be made with the settings. -/
inductive SettingsFault where
  | emptyKey
  | zeroTimeout
  | tooManyRetries (given : Nat)
  | unsupportedScheme (scheme : String)
  deriving DecidableEq, Repr, Inhabited

/-- The most repetitions of one request. -/
def maxRetriesAllowed : Nat := 10

def SettingsFault.message : SettingsFault → String
  | emptyKey => "API key cannot be empty"
  | zeroTimeout => "Timeout cannot be 0"
  | tooManyRetries given =>
    "max_retries cannot exceed " ++ toString maxRetriesAllowed ++ ", got " ++ toString given
  | unsupportedScheme scheme => "Unsupported endpoint scheme: " ++ scheme

namespace ApiSettings

/-- What is wrong with the settings, if anything. -/
def validate (s : ApiSettings) : Except SettingsFault Unit :=
  if Text.isAllBlank s.apiKey then .error .emptyKey
  else if s.timeoutSecs = 0 then .error .zeroTimeout
  else if maxRetriesAllowed < s.maxRetries then .error (.tooManyRetries s.maxRetries)
  else if s.endpoint.scheme = "http" || s.endpoint.scheme = "https" then .ok ()
  else .error (.unsupportedScheme s.endpoint.scheme)

/-- The client that the settings describe. -/
def client (s : ApiSettings) : Client where
  endpoint := s.endpoint
  apiKey := s.apiKey
  maxRetries := s.maxRetries
  baseDelay := s.retryBaseDelay

end ApiSettings

end TrafficGate
