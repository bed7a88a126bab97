import TrafficGate.Json.Scan
/-!
# Values that nobody looks at

A member whose key is not among the fields of a record is passed over,
but its value still has to be well-formed. Numbers and texts are read
more loosely there than where they count: any number of digits goes, and
surrogates need not pair up.
-/

namespace TrafficGate

namespace Json

open Utf8 (Piece)

/-- What is left behind the colon between a key and its value. -/
def colon (ps : List Piece) : Except Fault (List Piece) :=
  match skipGaps ps with
  | [] => .error .endInObject
  | .char ':' :: rest => .ok rest
  | _ => .error .noColon

mutual

/-- What is left behind a value. The first argument bounds the depth and
the length of what is passed over; as many as there are pieces suffice. -/
def skipValueWithin : Nat → List Piece → Except Fault (List Piece)
  | 0, _ => .error .endInValue
  | fuel + 1, ps =>
    match skipGaps ps with
    | [] => .error .endInValue
    | .char 'n' :: rest => word "ull".toList rest
    | .char 't' :: rest => word "rue".toList rest
    | .char 'f' :: rest => word "alse".toList rest
    | .char '-' :: rest => skipNumber rest
    | .char '"' :: rest => skipTextBody 0 rest
    | .char '[' :: rest =>
      match skipGaps rest with
      | [] => .error .endInList
      | .char ']' :: rest => .ok rest
      | rest => skipItems fuel rest
    | .char '\x7b' :: rest =>
      match skipGaps rest with
      | [] => .error .endInObject
      | .char '\x7d' :: rest => .ok rest
      | rest => skipMembers fuel rest
    | p :: rest => if (digitValue? p).isSome then skipNumber (p :: rest) else .error .noValue

/-- What is left behind the items of a list and its bracket. -/
def skipItems : Nat → List Piece → Except Fault (List Piece)
  | 0, _ => .error .endInList
  | fuel + 1, ps => do
    let rest ← skipValueWithin fuel ps
    match skipGaps rest with
    | [] => .error .endInList
    | .char ',' :: rest => skipItems fuel rest
    | .char ']' :: rest => .ok rest
    | _ => .error .noListDelimiter

/-- What is left behind the members of an object and its brace. -/
def skipMembers : Nat → List Piece → Except Fault (List Piece)
  | 0, _ => .error .endInObject
  | fuel + 1, ps =>
    match skipGaps ps with
    | [] => .error .endInObject
    | .char '"' :: rest => do
      let rest ← skipTextBody 0 rest
      let rest ← colon rest
      let rest ← skipValueWithin fuel rest
      match skipGaps rest with
      | [] => .error .endInObject
      | .char ',' :: rest => skipMembers fuel rest
      | .char '\x7d' :: rest => .ok rest
      | _ => .error .noObjectDelimiter
    | _ => .error .keyNotText

end

/-- What is left behind a well-formed value, whatever it is. -/
def skipValue (ps : List Piece) : Except Fault (List Piece) :=
  skipValueWithin (2 * ps.length + 2) ps

end Json

end TrafficGate
