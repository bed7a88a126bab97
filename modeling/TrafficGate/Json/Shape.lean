import TrafficGate.Json.Fault
/-!
# The shapes of records

A `Shape` says what a value has to look like: a text, a flag, one of a
few words, a list of one shape, a value or null, or a record of named
fields. A document read under a shape comes out in a canonical form: a
word as its text, a record as an object with its fields in the order in
which the shape declares them, without those that are absent or null and
without those that the shape does not know.
-/

namespace TrafficGate

namespace Json

mutual

/-- What a value has to look like. -/
inductive Shape where
  | text
  | flag
  /-- One of the given words. -/
  | word (names : List String)
  | list (item : Shape)
  /-- A value of the shape, or null. -/
  | optional (inner : Shape)
  | record (name : String) (fields : Fields)

/-- The fields of a record, in the order of declaration. A field that is
not required has a value of its own when it is absent. -/
inductive Fields where
  | done
  | field (name : String) (required : Bool) (shape : Shape) (rest : Fields)

end

/-- How many fields there are. -/
def Fields.size : Fields → Nat
  | .done => 0
  | .field _ _ _ rest => rest.size + 1

/-- A field together with a way to obtain its value. -/
structure Slot (α : Type) where
  name : String
  required : Bool
  take : α

/-- The fields of a record out of what was found of them: in the order of
declaration, without what is null. The first required field that was not
found is the fault. -/
def assemble {α : Type} (found : List (String × Json)) :
    List (Slot α) → Except Fault (List (String × Json))
  | [] => .ok []
  | slot :: slots =>
    match lookup? slot.name found with
    | none =>
      if slot.required then .error (.missingField slot.name) else assemble found slots
    | some .null => assemble found slots
    | some x => do
      let rest ← assemble found slots
      .ok ((slot.name, x) :: rest)

/-- A word, if it is one of the names. -/
def knownWord (names : List String) (s : String) : Except Fault Json :=
  if names.contains s then .ok (.text s) else .error (.unknownWord s names)

end Json

end TrafficGate
