/-!
# Response statuses

A status is a number of three digits. `Status.line` names it for a
person: the number, and its registered reason if there is one.
-/

namespace TrafficGate

/-- A number from 100 to 999. -/
structure Status where
  code : Nat
  code_le : code ≤ 999 := by decide
  le_code : 100 ≤ code := by decide
  deriving DecidableEq, Repr

namespace Status

/-- The status of a number, if it has three digits. -/
def ofNat? (n : Nat) : Option Status :=
  if h : n ≤ 999 ∧ 100 ≤ n then some ⟨n, h.1, h.2⟩ else none

def ok : Status := { code := 200 }

def created : Status := { code := 201 }

def noContent : Status := { code := 204 }

def notFound : Status := { code := 404 }

instance : Inhabited Status := ⟨ok⟩

/-- The registered reasons. -/
def reason? : Nat → Option String
  | 100 => "Continue"
  | 101 => "Switching Protocols"
  | 102 => "Processing"
  | 103 => "Early Hints"
  | 200 => "OK"
  | 201 => "Created"
  | 202 => "Accepted"
  | 203 => "Non Authoritative Information"
  | 204 => "No Content"
  | 205 => "Reset Content"
  | 206 => "Partial Content"
  | 207 => "Multi-Status"
  | 208 => "Already Reported"
  | 226 => "IM Used"
  | 300 => "Multiple Choices"
  | 301 => "Moved Permanently"
  | 302 => "Found"
  | 303 => "See Other"
  | 304 => "Not Modified"
  | 305 => "Use Proxy"
  | 307 => "Temporary Redirect"
  | 308 => "Permanent Redirect"
  | 400 => "Bad Request"
  | 401 => "Unauthorized"
  | 402 => "Payment Required"
  | 403 => "Forbidden"
  | 404 => "Not Found"
  | 405 => "Method Not Allowed"
  | 406 => "Not Acceptable"
  | 407 => "Proxy Authentication Required"
  | 408 => "Request Timeout"
  | 409 => "Conflict"
  | 410 => "Gone"
  | 411 => "Length Required"
  | 412 => "Precondition Failed"
  | 413 => "Payload Too Large"
  | 414 => "URI Too Long"
  | 415 => "Unsupported Media Type"
  | 416 => "Range Not Satisfiable"
  | 417 => "Expectation Failed"
  | 418 => "I'm a teapot"
  | 421 => "Misdirected Request"
  | 422 => "Unprocessable Entity"
  | 423 => "Locked"
  | 424 => "Failed Dependency"
  | 425 => "Too Early"
  | 426 => "Upgrade Required"
  | 428 => "Precondition Required"
  | 429 => "Too Many Requests"
  | 431 => "Request Header Fields Too Large"
  | 451 => "Unavailable For Legal Reasons"
  | 500 => "Internal Server Error"
  | 501 => "Not Implemented"
  | 502 => "Bad Gateway"
  | 503 => "Service Unavailable"
  | 504 => "Gateway Timeout"
  | 505 => "HTTP Version Not Supported"
  | 506 => "Variant Also Negotiates"
  | 507 => "Insufficient Storage"
  | 508 => "Loop Detected"
  | 510 => "Not Extended"
  | 511 => "Network Authentication Required"
  | _ => none

/-- The status as a person reads it: `404 Not Found`. -/
def line (s : Status) : String :=
  match reason? s.code with
  | some reason => toString s.code ++ " " ++ reason
  | none => toString s.code

/-- The statuses after which a request may be sent again. -/
def isRetriable (s : Status) : Bool := [429, 500, 502, 503, 504].contains s.code

end Status

end TrafficGate
