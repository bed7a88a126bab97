/-!
# Metrics

What the program counts, with names and descriptions as they are
registered, and the samples it takes of them.
-/

namespace TrafficGate

/-- How samples of a metric add up. -/
inductive MetricType where
  | counter
  | gauge
  | histogram
  deriving DecidableEq, Repr, Inhabited

def MetricType.name : MetricType → String
  | counter => "Counter"
  | gauge => "Gauge"
  | histogram => "Histogram"

/-- A registered metric. -/
structure Metric where
  name : String
  type : MetricType
  description : String
  deriving DecidableEq, Repr, Inhabited

namespace Metric

def requestDuration : Metric where
  name := "serverless_api.request.duration"
  type := .histogram
  description := "Time to receive response headers from the serverless API in seconds"

def requestRetry : Metric where
  name := "serverless_api.request.retry"
  type := .counter
  description := "Number of requests retried after a retriable status code"

def membershipWrite : Metric where
  name := "association.membership.write"
  type := .counter
  description := "Number of full traffic filter lists written back to a project"

def membershipNoop : Metric where
  name := "association.membership.noop"
  type := .counter
  description := "Number of association operations that found the membership already settled"

def membershipDrift : Metric where
  name := "association.membership.drift"
  type := .counter
  description := "Number of reads that found a tracked association missing from its project"

def concurrentModification : Metric where
  name := "association.membership.concurrent_modification"
  type := .counter
  description := "Number of writes whose read-back differed from the written membership"

def filterRemoved : Metric where
  name := "traffic_filter.removed"
  type := .counter
  description := "Number of reads that found a tracked traffic filter deleted server-side"

/-- What the client of the API counts. -/
def ofClient : List Metric := [requestDuration, requestRetry]

/-- What the resources count. -/
def ofResources : List Metric :=
  [membershipWrite, membershipNoop, membershipDrift, concurrentModification, filterRemoved]

end Metric

/-- One occurrence of what a metric counts, with its label. -/
structure Sample where
  metric : Metric
  label : Option (String × String)
  deriving DecidableEq, Repr, Inhabited

/-- A sample without a label. -/
def Metric.sample (m : Metric) : Sample := ⟨m, none⟩

/-- A sample with a label. -/
def Metric.labelled (m : Metric) (name value : String) : Sample := ⟨m, some (name, value)⟩

/-- The metric and its label, as totals are listed. -/
def Sample.key (s : Sample) : String :=
  match s.label with
  | none => s.metric.name
  | some (name, value) => s.metric.name ++ "\x7b" ++ name ++ "=" ++ value ++ "\x7d"

end TrafficGate
