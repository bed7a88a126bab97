import TrafficGate.Url.Host
/-!
# URLs

A URL in parts. Its path is a list of segments, each behind a slash, or,
for schemes that name things otherwise than by a path, plain text. Only a
URL with segments can be a base that more segments are added to.
-/

namespace TrafficGate

/-- What a URL names within its host. -/
inductive UrlPath where
  /-- Text without structure. -/
  | plain (text : String)
  | segments (segs : List String)
  deriving DecidableEq, Repr, Inhabited

/-- A URL in parts. The texts of all parts are percent-encoded. -/
structure Url where
  scheme : String
  username : String := ""
  password : String := ""
  host : Option Host := none
  port : Option Nat := none
  path : UrlPath
  query : Option String := none
  fragment : Option String := none
  deriving DecidableEq, Repr, Inhabited

namespace Url

/-- The port that a scheme implies. -/
def defaultPort? : String → Option Nat
  | "http" => some 80
  | "https" => some 443
  | "ws" => some 80
  | "wss" => some 443
  | "ftp" => some 21
  | _ => none

/-- The schemes with a host and a path of segments. -/
def isSpecial (scheme : String) : Bool := scheme = "file" || (defaultPort? scheme).isSome

/-- The text of the path. -/
def pathText (u : Url) : String :=
  match u.path with
  | .plain text => text
  | .segments segs => String.join (segs.map ("/" ++ ·))

/-- The credentials, as they stand before the host. -/
def credentialsText (u : Url) : String :=
  if u.username.isEmpty && u.password.isEmpty then ""
  else if u.password.isEmpty then u.username ++ "@"
  else u.username ++ ":" ++ u.password ++ "@"

/-- The host with credentials and port. A path that begins with two
slashes is kept apart from a missing host. -/
def authorityText (u : Url) : String :=
  match u.host with
  | some host =>
    "//" ++ u.credentialsText ++ host.text ++
      (match u.port with
        | some port => ":" ++ toString port
        | none => "")
  | none => if u.pathText.startsWith "//" then "/." else ""

/-- A part behind a mark, if it is there. -/
def markedText (mark : String) : Option String → String
  | some text => mark ++ text
  | none => ""

/-- The text of a URL. -/
def text (u : Url) : String :=
  u.scheme ++ ":" ++ u.authorityText ++ u.pathText ++ markedText "?" u.query ++
    markedText "#" u.fragment

/-- Without credentials. -/
def withoutCredentials (u : Url) : Url := { u with username := "", password := "" }

end Url

end TrafficGate
