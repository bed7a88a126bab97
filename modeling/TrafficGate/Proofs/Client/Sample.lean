import TrafficGate.Client
/-!
# A sample client

The client of the concrete cases behind the general theorems. Its endpoint
has no path of its own, so its requests go to the addresses of the API as
they are.
-/

namespace TrafficGate

namespace Sample

/-- A client that asks three times at most. -/
def client : Client where
  endpoint := { scheme := "http", host := some (.name "localhost"), path := .segments [""] }
  apiKey := "key"
  maxRetries := 2
  baseDelay := 500

/-- A request that it sends: to the place that these segments name, and with
its key. -/
def request (method : Method) (segments : List String) (body : Option String) : Request where
  method := method
  url := { client.endpoint with path := .segments (["api", "v1", "serverless"] ++ segments) }
  authorization := "ApiKey key"
  body := body

end Sample

end TrafficGate
