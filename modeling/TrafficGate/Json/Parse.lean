import TrafficGate.Json.Skip
/-!
# Documents read without a shape

`parseText?` reads any JSON document as a value. What it gives is
`ordered`: members stand in the order of their keys, and of several
members with one key the last one counts.
-/

namespace TrafficGate

namespace Json

open Utf8 (Piece)

mutual

/-- The value that begins here. The first argument bounds the depth and
the length of the value; twice as many as there are pieces suffice. -/
def parseValue : Nat → Reader Json
  | 0, _ => .error .endInValue
  | fuel + 1, ps =>
    match skipGaps ps with
    | [] => .error .endInValue
    | .char 'n' :: rest => do
      let rest ← word "ull".toList rest
      .ok (.null, rest)
    | .char 't' :: rest => do
      let rest ← word "rue".toList rest
      .ok (.flag true, rest)
    | .char 'f' :: rest => do
      let rest ← word "alse".toList rest
      .ok (.flag false, rest)
    | .char '-' :: rest => do
      let (n, rest) ← numeral true rest
      .ok (.number n, rest)
    | .char '"' :: rest => do
      let (s, rest) ← quotedText rest
      .ok (.text s, rest)
    | .char '[' :: rest =>
      match skipGaps rest with
      | [] => .error .endInList
      | .char ']' :: rest => .ok (.list [], rest)
      | rest => do
        let (items, rest) ← parseItems fuel rest
        .ok (.list items, rest)
    | .char '\x7b' :: rest =>
      match skipGaps rest with
      | [] => .error .endInObject
      | .char '\x7d' :: rest => .ok (.object [], rest)
      | rest => do
        let (members, rest) ← parseMembers fuel rest
        .ok (.object members, rest)
    | p :: rest =>
      if (digitValue? p).isSome then do
        let (n, rest) ← numeral false (p :: rest)
        .ok (.number n, rest)
      else .error .noValue

/-- The items of a list and its bracket. -/
def parseItems : Nat → Reader (List Json)
  | 0, _ => .error .endInList
  | fuel + 1, ps => do
    let (x, rest) ← parseValue fuel ps
    match skipGaps rest with
    | [] => .error .endInList
    | .char ',' :: rest =>
      match skipGaps rest with
      | .char ']' :: _ => .error .trailingComma
      | rest => do
        let (xs, rest) ← parseItems fuel rest
        .ok (x :: xs, rest)
    | .char ']' :: rest => .ok ([x], rest)
    | _ => .error .noListDelimiter

/-- The members of an object and its brace. -/
def parseMembers : Nat → Reader (List (String × Json))
  | 0, _ => .error .endInObject
  | fuel + 1, ps =>
    match skipGaps ps with
    | .char '"' :: rest => do
      let (key, rest) ← quotedText rest
      let rest ← colon rest
      let (x, rest) ← parseValue fuel rest
      match skipGaps rest with
      | [] => .error .endInObject
      | .char ',' :: rest =>
        match skipGaps rest with
        | [] => .error .endInValue
        | .char '\x7d' :: _ => .error .trailingComma
        | rest => do
          let (members, rest) ← parseMembers fuel rest
          .ok ((key, x) :: members, rest)
      | .char '\x7d' :: rest => .ok ([(key, x)], rest)
      | _ => .error .noObjectDelimiter
    | _ => .error .keyNotText

end

/-- The value of a whole document. -/
def parse (ps : List Piece) : Except Fault Json := do
  let (x, rest) ← parseValue (2 * ps.length + 2) ps
  match skipGaps rest with
  | [] => .ok x.ordered
  | _ => .error .trailingCharacters

/-- The value of a text. -/
def parseText? (s : String) : Option Json := (parse (Utf8.ofString s)).toOption

end Json

end TrafficGate
