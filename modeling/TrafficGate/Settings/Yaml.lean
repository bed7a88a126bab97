import TrafficGate.Settings.Basic
import TrafficGate.Yaml.Record
/-!
# Settings in files

The settings as a YAML document. Only the endpoint and the key of the API
have to be given.
-/

namespace TrafficGate

open Yaml (Node)

def ApiSettings.ofNode? (x : Node) : Option ApiSettings := do
  let fields ← x.record?
    ["endpoint", "api_key", "timeout_secs", "max_retries", "retry_base_delay_ms"]
  let endpoint ← fields.required? "endpoint" fun x => x.text?.bind Url.ofString?
  let apiKey ← fields.required? "api_key" Node.text?
  let timeoutSecs ← fields.defaulted? "timeout_secs" (Node.count? 64) 30
  let maxRetries ← fields.defaulted? "max_retries" (Node.count? 32) 3
  let retryBaseDelay ← fields.defaulted? "retry_base_delay_ms" (Node.count? 64) 500
  some
    { endpoint := endpoint, apiKey := apiKey, timeoutSecs := timeoutSecs
      maxRetries := maxRetries, retryBaseDelay := retryBaseDelay }

def LoggingSettings.ofNode? (x : Node) : Option LoggingSettings := do
  let fields ← x.record? ["level", "sentry_dsn"]
  let level ← fields.defaulted? "level" Node.text? "info"
  let sentryDsn ← fields.optional? "sentry_dsn" Node.text?
  some { level := level, sentryDsn := sentryDsn }

def MetricsSettings.ofNode? (x : Node) : Option MetricsSettings := do
  let fields ← x.record? ["statsd_host", "statsd_port", "prefix"]
  let host ← fields.required? "statsd_host" Node.text?
  let port ← fields.required? "statsd_port" (Node.count? 16)
  let namespaceName ← fields.defaulted? "prefix" Node.text? "ecfilter"
  some { host := host, port := port, namespaceName := namespaceName }

namespace Settings

def ofNode? (x : Node) : Option Settings := do
  let fields ← x.record? ["api", "logging", "metrics"]
  let api ← fields.required? "api" ApiSettings.ofNode?
  let logging ← fields.defaulted? "logging" LoggingSettings.ofNode? {}
  let metrics ← fields.optional? "metrics" MetricsSettings.ofNode?
  some { api := api, logging := logging, metrics := metrics }

/-- The settings that a file holds. -/
def ofYaml? (bytes : List UInt8) : Option Settings := (Node.ofBytes? bytes).bind ofNode?

end Settings

end TrafficGate
