import TrafficGate.Json.Shape
/-!
# Values held against a shape

`check` is `decode` for a value that has been read already: it gives the
canonical form of a value of a shape, or the first fault. The members of
an object are looked at in the order in which the value holds them.
-/

namespace TrafficGate

namespace Json

/-- A value that decides a fault by its kind. -/
def wrongValue (expected : Expected) (x : Json) : Fault := .wrongKind (.ofValue x) expected

def checkText : Json → Except Fault Json
  | .text s => .ok (.text s)
  | x => .error (wrongValue .text x)

def checkFlag : Json → Except Fault Json
  | .flag b => .ok (.flag b)
  | x => .error (wrongValue .flag x)

def checkWord (names : List String) : Json → Except Fault Json
  | .text s => knownWord names s
  | .object [(key, x)] => do
    let word ← knownWord names key
    match x with
    | .null => .ok word
    | x => .error (wrongValue .nothing x)
  | .object _ => .error .notOneMember
  | x => .error (wrongValue .wordOrObject x)

def checkList (item : Json → Except Fault Json) : Json → Except Fault Json
  | .list xs => do
    let ys ← xs.mapM item
    .ok (.list ys)
  | x => .error (wrongValue .list x)

def checkOptional (inner : Json → Except Fault Json) : Json → Except Fault Json
  | .null => .ok .null
  | x => inner x

/-- The known members of an object, each held against its field. -/
def checkMembers (slots : List (Slot (Json → Except Fault Json))) :
    List (String × Json) → Except Fault (List (String × Json))
  | [] => .ok []
  | (key, x) :: rest =>
    match slots.find? (·.name == key) with
    | none => checkMembers slots rest
    | some slot => do
      let y ← slot.take x
      let found ← checkMembers slots rest
      .ok ((key, y) :: found)

/-- The items of a list, each held against the field in its place. -/
def checkElements (kind : RecordKind) :
    List (Slot (Json → Except Fault Json)) → Nat → List Json →
      Except Fault (List (String × Json))
  | [], _, [] => .ok []
  | [], index, rest => .error (.tooLong (index + rest.length))
  | slot :: slots, index, [] =>
    if slot.required then .error (.tooShort index kind) else checkElements kind slots index []
  | slot :: slots, index, x :: rest => do
    let y ← slot.take x
    let found ← checkElements kind slots (index + 1) rest
    .ok ((slot.name, y) :: found)

def checkRecord (kind : RecordKind) (slots : List (Slot (Json → Except Fault Json))) :
    Json → Except Fault Json
  | .object members => do
    let found ← checkMembers slots members
    let members ← assemble found slots
    .ok (.object members)
  | .list items => do
    let found ← checkElements kind slots 0 items
    let members ← assemble found slots
    .ok (.object members)
  | x => .error (wrongValue (.record kind) x)

mutual

/-- Holds a value against a shape. -/
def check : Shape → Json → Except Fault Json
  | .text => checkText
  | .flag => checkFlag
  | .word names => checkWord names
  | .list item => checkList (check item)
  | .optional inner => checkOptional (check inner)
  | .record name fields => checkRecord ⟨name, fields.size⟩ (checkSlots fields)

/-- The checks of the fields of a record. -/
def checkSlots : Fields → List (Slot (Json → Except Fault Json))
  | .done => []
  | .field name required shape rest => ⟨name, required, check shape⟩ :: checkSlots rest

end

end Json

end TrafficGate
