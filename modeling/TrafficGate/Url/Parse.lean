import TrafficGate.Url.Path
/-!
# URLs read from text

`Url.ofString?` reads an absolute URL. Blanks and controls around it and
line ends and tabs within it do not count. The scheme decides how the
rest is read: the special ones always have a host and a path of segments,
and take a backslash for a slash.
-/

namespace TrafficGate

namespace Url

/-- Without blanks and controls at the ends, and without line ends and
tabs. -/
def cleaned (cs : List Char) : List Char :=
  let isEdge (c : Char) : Bool := c.toNat ≤ 0x20
  let cs := ((cs.dropWhile isEdge).reverse.dropWhile isEdge).reverse
  cs.filter fun c => !UrlPath.isDropped c

/-- The scheme, in small letters, and what stands behind its colon. -/
def schemeOf? (cs : List Char) : Option (String × List Char) :=
  match Text.cutFirst (· = ':') cs with
  | (name, some rest) =>
    let isPart (c : Char) : Bool := c.isAlphanum || c = '+' || c = '-' || c = '.'
    if (name.head?.any (·.isAlpha)) && name.all isPart then
      some ((String.ofList name).toLower, rest)
    else none
  | (_, none) => none

/-- A text up to its first mark, and the text behind the mark. -/
def marked (mark : Char) (cs : List Char) : List Char × Option (List Char) :=
  Text.cutFirst (· = mark) cs

/-- Takes the query and the fragment off the end of a URL: what is left,
and both in encoded form. -/
def tails (special : Bool) (cs : List Char) : List Char × Option String × Option String :=
  let (cs, fragment) := marked '#' cs
  let (cs, query) := marked '?' cs
  let querySet := if special then Percent.specialQuery else Percent.query
  (cs, query.map fun q => String.ofList (Percent.encode querySet q),
    fragment.map fun f => String.ofList (Percent.encode Percent.fragment f))

/-- The authority, up to the first slash, and the path from there on. -/
def authorityOf (special : Bool) : List Char → List Char × List Char
  | [] => ([], [])
  | c :: rest =>
    if c = '/' || (special && c = '\\') then ([], c :: rest)
    else
      let (authority, path) := authorityOf special rest
      (c :: authority, path)

/-- What stands before the last at sign, if there is one, and behind it. -/
def cutLastAt (cs : List Char) : Option (List Char) × List Char :=
  let behind := (cs.reverse.takeWhile (· ≠ '@')).reverse
  if cs.contains '@' then (some (cs.take (cs.length - behind.length - 1)), behind) else (none, cs)

/-- The host and the port of an authority: up to the first colon outside
brackets, and behind it. -/
def cutPort : Bool → List Char → List Char × Option (List Char)
  | _, [] => ([], none)
  | inside, c :: rest =>
    if c = ':' && !inside then ([], some rest)
    else
      let inside := if c = '[' then true else if c = ']' then false else inside
      let (host, port) := cutPort inside rest
      (c :: host, port)

/-- A port, if there is one and the scheme does not imply it; nothing at
all for a text that is no port. -/
def portOf? (scheme : String) (cs : List Char) : Option (Option Nat) :=
  if cs.isEmpty then some none
  else
    match Host.ofDigits? 10 cs with
    | none => none
    | some n =>
      if 65535 < n then none
      else if defaultPort? scheme = some n then some none
      else some (some n)

/-- The path behind an authority. -/
def pathOf (scheme : String) (cs : List Char) : UrlPath :=
  match cs with
  | [] => .segments (if isSpecial scheme then [""] else [])
  | c :: rest =>
    let isCut := c = '/' || (isSpecial scheme && c = '\\')
    .segments (UrlPath.ofChars scheme (if isCut then rest else c :: rest))

/-- Reads what stands behind the two slashes of an authority. -/
def withAuthority? (scheme : String) (cs : List Char) : Option Url := do
  let special := isSpecial scheme
  let (cs, query, fragment) := tails special cs
  let (authority, path) := authorityOf special cs
  let (credentials, hostPort) := cutLastAt authority
  let (name, password) := marked ':' (credentials.getD [])
  let (hostChars, port) := cutPort false hostPort
  let encode (cs : List Char) : String := String.ofList (Percent.encode Percent.userinfo cs)
  let url : Url :=
    { scheme := scheme, username := encode name, password := encode (password.getD [])
      path := pathOf scheme path, query := query, fragment := fragment }
  if hostChars.isEmpty then
    if special || credentials.isSome || port.isSome then none
    else some { url with host := some (.name "") }
  else do
    let host ← if special then Host.ofChars? hostChars else Host.ofForeignChars? hostChars
    let port ← portOf? scheme (port.getD [])
    some { url with host := some host, port := port }

/-- Reads the rest of a URL that names a file. -/
def ofFile? (cs : List Char) : Option Url := do
  let (cs, query, fragment) := tails true cs
  let isSlash (c : Char) : Bool := c = '/' || c = '\\'
  let url (host : Host) (path : List Char) : Url :=
    { scheme := "file", host := some host, path := pathOf "file" path
      query := query, fragment := fragment }
  match cs with
  | a :: b :: rest =>
    if isSlash a && isSlash b then
      let (hostChars, path) := authorityOf true rest
      if hostChars.isEmpty then some (url (.name "") path)
      else if UrlPath.isDrive (String.ofList hostChars) then some (url (.name "") rest)
      else do
        let host ← Host.ofChars? hostChars
        some (url (if host = .name "localhost" then .name "" else host) path)
    else some (url (.name "") cs)
  | _ => some (url (.name "") cs)

/-- Reads the rest of a URL whose scheme is not special. -/
def ofForeign? (scheme : String) (cs : List Char) : Option Url :=
  match cs with
  | '/' :: '/' :: rest => withAuthority? scheme rest
  | _ =>
    let (cs, query, fragment) := tails false cs
    let path : UrlPath :=
      match cs with
      | '/' :: rest => .segments (UrlPath.ofChars scheme rest)
      | _ => .plain (String.ofList (Percent.encode Percent.controls cs))
    some { scheme := scheme, path := path, query := query, fragment := fragment }

/-- Reads an absolute URL. -/
def ofString? (s : String) : Option Url := do
  let (scheme, rest) ← schemeOf? (cleaned s.toList)
  if scheme = "file" then ofFile? rest
  else if isSpecial scheme then
    withAuthority? scheme (rest.dropWhile fun c => c = '/' || c = '\\')
  else ofForeign? scheme rest

end Url

end TrafficGate
