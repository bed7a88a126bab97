import TrafficGate.Url.Basic
/-!
# Paths of URLs

How segments are put together to a path: a segment of one dot adds
nothing, one of two dots takes the last segment away, and every other is
encoded and added. `Url.push` adds one segment to a finished path, where
a dot segment adds nothing at all and everything else is one segment,
whatever characters it holds.
-/

namespace TrafficGate

namespace UrlPath

/-- A letter and a colon or bar: a drive, which is never taken away. -/
def isDrive (s : String) : Bool :=
  match s.toList with
  | [c, d] => c.isAlpha && (d = ':' || d = '|')
  | _ => false

/-- One dot, written in any way. -/
def isDot (s : String) : Bool := [".", "%2e"].contains s.toLower

/-- Two dots, written in any way. -/
def isDoubleDot (s : String) : Bool := ["..", ".%2e", "%2e.", "%2e%2e"].contains s.toLower

/-- Without the last segment, unless that is a drive. -/
def shorten (segs : List String) : List String :=
  match segs.getLast? with
  | some last => if isDrive last then segs else segs.dropLast
  | none => []

/-- Adds the segments of a text in turn. The last one, if it is a dot
segment, leaves an empty segment in its place. -/
def addAll (encode : String → String) (segs : List String) : List String → List String
  | [] => segs
  | s :: rest =>
    let isLast := rest.isEmpty
    let segs :=
      if isDoubleDot s then shorten segs ++ (if isLast then [""] else [])
      else if isDot s then segs ++ (if isLast then [""] else [])
      else segs ++ [encode s]
    addAll encode segs rest

/-- Paths of files begin with no empty segment. -/
def trimFile : List String → List String
  | "" :: s :: rest => trimFile (s :: rest)
  | segs => segs

/-- The segments of a path as it stands in a URL, behind its first slash. -/
def ofChars (scheme : String) (cs : List Char) : List String :=
  let isCut (c : Char) : Bool := c = '/' || (Url.isSpecial scheme && c = '\\')
  let encode (s : String) : String :=
    let s := String.ofList (Percent.encode Percent.path s.toList)
    if scheme = "file" && isDrive s then String.ofList (s.toList.take 1 ++ [':']) else s
  let segs := addAll encode [] ((Text.split isCut cs).map String.ofList)
  if scheme = "file" then trimFile segs else segs

/-- The characters that a segment is written without. -/
def isDropped (c : Char) : Bool := c = '\t' || c = '\n' || c = '\r'

/-- How the characters of a segment are encoded under a scheme. -/
def segmentSet (scheme : String) : Percent.EncodeSet :=
  if Url.isSpecial scheme then Percent.specialSegment else Percent.segment

/-- Adds one segment. A path of nothing but a slash is replaced. -/
def push (scheme : String) (segs : List String) (s : String) : List String :=
  if s = "." || s = ".." then segs
  else
    let base := if segs = [""] then [] else segs
    let cs := s.toList.filter fun c => !isDropped c
    let segs :=
      if cs = ['.', '.'] then shorten base ++ [""]
      else if cs = ['.'] then base ++ [""]
      else base ++ [String.ofList (Percent.encode (segmentSet scheme) cs)]
    if scheme = "file" then trimFile segs else segs

/-- Without an empty segment at the end, unless it is the only one. -/
def dropTrailing (segs : List String) : List String :=
  if 1 < segs.length && segs.getLast? = some "" then segs.dropLast else segs

end UrlPath

namespace Url

/-- Adds segments to the path, in place of an empty one at its end;
nothing for a URL that is no base. -/
def extend? (u : Url) (added : List String) : Option Url :=
  match u.path with
  | .plain _ => none
  | .segments segs =>
    let segs := added.foldl (UrlPath.push u.scheme) (UrlPath.dropTrailing segs)
    some { u with path := .segments segs }

end Url

end TrafficGate
