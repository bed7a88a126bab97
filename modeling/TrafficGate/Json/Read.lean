import TrafficGate.Json.Shape
import TrafficGate.Json.Skip
/-!
# Documents read under a shape

`decode` reads a document once, from left to right, under a `Shape`, and
gives its canonical form or the first fault. A record may stand as an
object, with its members in any order and with unknown ones among them,
or as the list of its fields in the order of declaration, where fields
that are not required may be left off at the end. A word may stand as its
text or as the one key of an object whose value is null.
-/

namespace TrafficGate

namespace Json

open Utf8 (Piece)

/-! ## One value -/

/-- The fault of a value that begins here and is not of the expected
kind: a fault inside the value comes first. -/
def foreign (expected : Expected) (ps : List Piece) : Fault :=
  let wrong (found : Found) : Fault := .wrongKind found expected
  let after (found : Found) (r : Except Fault (List Piece)) : Fault :=
    match r with
    | .ok _ => wrong found
    | .error f => f
  let numeric (r : Except Fault (Number × List Piece)) : Fault :=
    match r with
    | .ok (n, _) => wrong (.number n)
    | .error f => f
  match ps with
  | .char 'n' :: rest => after .null (word "ull".toList rest)
  | .char 't' :: rest => after (.flag true) (word "rue".toList rest)
  | .char 'f' :: rest => after (.flag false) (word "alse".toList rest)
  | .char '-' :: rest => numeric (numeral true rest)
  | .char '"' :: rest =>
    match quotedText rest with
    | .ok (s, _) => wrong (.text s)
    | .error f => f
  | .char '[' :: _ => wrong .list
  | .char '\x7b' :: _ => wrong .object
  | p :: rest => if (digitValue? p).isSome then numeric (numeral false (p :: rest)) else .noValue
  | [] => .noValue

/-- A text where one is expected under the given name. -/
def textAs (expected : Expected) : Reader String := fun ps =>
  match skipGaps ps with
  | [] => .error .endInValue
  | .char '"' :: rest => quotedText rest
  | ps => .error (foreign expected ps)

def readText : Reader Json := fun ps => do
  let (s, rest) ← textAs .text ps
  .ok (.text s, rest)

def readFlag : Reader Json := fun ps =>
  match skipGaps ps with
  | [] => .error .endInValue
  | .char 't' :: rest => do
    let rest ← word "rue".toList rest
    .ok (.flag true, rest)
  | .char 'f' :: rest => do
    let rest ← word "alse".toList rest
    .ok (.flag false, rest)
  | ps => .error (foreign .flag ps)

/-- Null, and nothing else. -/
def readNull (ps : List Piece) : Except Fault (List Piece) :=
  match skipGaps ps with
  | [] => .error .endInValue
  | .char 'n' :: rest => word "ull".toList rest
  | ps => .error (foreign .nothing ps)

def readWord (names : List String) : Reader Json := fun ps =>
  match skipGaps ps with
  | [] => .error .endInValue
  | .char '"' :: rest => do
    let (s, rest) ← quotedText rest
    let x ← knownWord names s
    .ok (x, rest)
  | .char '\x7b' :: rest => do
    let (s, rest) ← textAs .wordName rest
    let x ← knownWord names s
    let rest ← colon rest
    let rest ← readNull rest
    match skipGaps rest with
    | [] => .error .endInObject
    | .char '\x7d' :: rest => .ok (x, rest)
    | _ => .error .noValue
  | _ => .error .noValue

def readOptional (inner : Reader Json) : Reader Json := fun ps =>
  match skipGaps ps with
  | .char 'n' :: rest => do
    let rest ← word "ull".toList rest
    .ok (.null, rest)
  | ps => inner ps

/-! ## Lists -/

/-- Goes to the next item of a list: whether there is one, and the text
from it, or from the closing bracket, on. -/
def nextItem (first : Bool) (ps : List Piece) : Except Fault (Bool × List Piece) :=
  match skipGaps ps with
  | [] => .error .endInList
  | .char ']' :: rest => .ok (false, .char ']' :: rest)
  | .char ',' :: rest =>
    if first then .ok (true, .char ',' :: rest)
    else
      match skipGaps rest with
      | [] => .error .endInValue
      | .char ']' :: _ => .error .trailingComma
      | rest => .ok (true, rest)
  | ps => if first then .ok (true, ps) else .error .noListDelimiter

/-- The items of a list up to and with its bracket. The first argument
bounds their number. -/
def readItems (item : Reader Json) : Nat → Bool → Reader (List Json)
  | 0, _, _ => .error .endInList
  | fuel + 1, first, ps => do
    let (more, rest) ← nextItem first ps
    if more then do
      let (x, rest) ← item rest
      let (xs, rest) ← readItems item fuel false rest
      .ok (x :: xs, rest)
    else .ok ([], rest.drop 1)

def readList (item : Reader Json) : Reader Json := fun ps =>
  match skipGaps ps with
  | [] => .error .endInValue
  | .char '[' :: rest => do
    let (xs, rest) ← readItems item (rest.length + 1) true rest
    .ok (.list xs, rest)
  | ps => .error (foreign .list ps)

/-! ## Records -/

/-- Goes to the next member of an object: its key and the text behind the
key, or nothing and the text behind the closing brace. -/
def nextKey (first : Bool) (ps : List Piece) : Except Fault (Option String × List Piece) :=
  match skipGaps ps with
  | [] => .error .endInObject
  | .char '\x7d' :: rest => .ok (none, rest)
  | .char ',' :: rest =>
    if first then .error .keyNotText
    else
      match skipGaps rest with
      | [] => .error .endInValue
      | .char '\x7d' :: _ => .error .trailingComma
      | .char '"' :: rest => key rest
      | _ => .error .keyNotText
  | .char '"' :: rest => if first then key rest else .error .noObjectDelimiter
  | _ => .error (if first then .keyNotText else .noObjectDelimiter)
where
  key (ps : List Piece) : Except Fault (Option String × List Piece) := do
    let (s, rest) ← quotedText ps
    .ok (some s, rest)

/-- The members of a record up to and with its brace. Known fields are
kept, each at most once; other members are passed over. The first
argument bounds their number. -/
def readMembers (slots : List (Slot (Reader Json))) :
    Nat → Bool → List (String × Json) → Reader (List (String × Json))
  | 0, _, _, _ => .error .endInObject
  | fuel + 1, first, found, ps => do
    match ← nextKey first ps with
    | (none, rest) => .ok (found, rest)
    | (some key, rest) =>
      match slots.find? (·.name == key) with
      | none => do
        let rest ← colon rest
        let rest ← skipValue rest
        readMembers slots fuel false found rest
      | some slot =>
        if (lookup? key found).isSome then .error (.duplicateField key)
        else do
          let rest ← colon rest
          let (x, rest) ← slot.take rest
          readMembers slots fuel false (found ++ [(key, x)]) rest

/-- The closing bracket of a list that stands for a record. -/
def closeRecordList (ps : List Piece) : Except Fault (List Piece) :=
  match skipGaps ps with
  | [] => .error .endInList
  | .char ']' :: rest => .ok rest
  | .char ',' :: rest =>
    match skipGaps rest with
    | .char ']' :: _ => .error .trailingComma
    | _ => .error .trailingCharacters
  | _ => .error .trailingCharacters

/-- The fields of a record that stands as a list, up to its bracket. -/
def readElements (kind : RecordKind) :
    List (Slot (Reader Json)) → Nat → Reader (List (String × Json))
  | [], _, ps => do
    let rest ← closeRecordList ps
    .ok ([], rest)
  | slot :: slots, index, ps => do
    let (more, rest) ← nextItem (index = 0) ps
    if more then do
      let (x, rest) ← slot.take rest
      let (xs, rest) ← readElements kind slots (index + 1) rest
      .ok ((slot.name, x) :: xs, rest)
    else if slot.required then .error (.tooShort index kind)
    else readElements kind slots (index + 1) rest

def readRecord (kind : RecordKind) (slots : List (Slot (Reader Json))) : Reader Json := fun ps =>
  match skipGaps ps with
  | [] => .error .endInValue
  | .char '\x7b' :: rest => do
    let (found, rest) ← readMembers slots (rest.length + 1) true [] rest
    let members ← assemble found slots
    .ok (.object members, rest)
  | .char '[' :: rest => do
    let (found, rest) ← readElements kind slots 0 rest
    let members ← assemble found slots
    .ok (.object members, rest)
  | ps => .error (foreign (.record kind) ps)

/-! ## Shapes -/

mutual

/-- Reads a value of a shape into its canonical form. -/
def read : Shape → Reader Json
  | .text => readText
  | .flag => readFlag
  | .word names => readWord names
  | .list item => readList (read item)
  | .optional inner => readOptional (read inner)
  | .record name fields => readRecord ⟨name, fields.size⟩ (readSlots fields)

/-- The readers of the fields of a record. -/
def readSlots : Fields → List (Slot (Reader Json))
  | .done => []
  | .field name required shape rest => ⟨name, required, read shape⟩ :: readSlots rest

end

/-- A whole document under a shape. -/
def decode (shape : Shape) (ps : List Piece) : Except Fault Json := do
  let (x, rest) ← read shape ps
  match skipGaps rest with
  | [] => .ok x
  | _ => .error .trailingCharacters

end Json

end TrafficGate
