import TrafficGate.Json.Check
import TrafficGate.Json.Printer
import TrafficGate.Json.Read
/-!
# Codecs

How values of a type stand in JSON: the shape they are read under, the
value they are written as, and what a value in canonical form means.
`ofCanonical` is total; it is applied only to what was read under the
shape, where nothing it looks for is missing.
-/

namespace TrafficGate

namespace Json

/-- A type's way into JSON and back. -/
structure Codec (α : Type) where
  shape : Shape
  encode : α → Json
  ofCanonical : Json → α

namespace Codec

variable {α : Type}

/-- Reads a document. -/
def decode (c : Codec α) (ps : List Utf8.Piece) : Except Fault α :=
  (Json.decode c.shape ps).map c.ofCanonical

/-- Reads a document from a text. -/
def ofText (c : Codec α) (s : String) : Except Fault α := c.decode (Utf8.ofString s)

/-- Reads a document from bytes. -/
def ofBytes (c : Codec α) (bytes : List UInt8) : Except Fault α := c.decode (Utf8.pieces bytes)

/-- Takes a value that was read without a shape. -/
def ofValue (c : Codec α) (x : Json) : Except Fault α := (check c.shape x).map c.ofCanonical

/-- The compact text of a value. -/
def toText (c : Codec α) (a : α) : String := (c.encode a).compact

/-- Lists of what a codec reads and writes. -/
def listOf (c : Codec α) : Codec (List α) where
  shape := .list c.shape
  encode xs := .list (xs.map c.encode)
  ofCanonical x := (x.items?.getD []).map c.ofCanonical

/-- What a codec reads and writes, or null. -/
def orNull (c : Codec α) : Codec (Option α) where
  shape := .optional c.shape
  encode
    | some a => c.encode a
    | none => .null
  ofCanonical x := if x.isNull then none else some (c.ofCanonical x)

end Codec

/-! ## Fields of a canonical record -/

/-- The text under a key; empty if there is none. -/
def textAt (key : String) (x : Json) : String := ((x.get? key).bind text?).getD ""

/-- The text under a key, if there is one. -/
def textAt? (key : String) (x : Json) : Option String := (x.get? key).bind text?

/-- The flag under a key; off if there is none. -/
def flagAt (key : String) (x : Json) : Bool := ((x.get? key).bind flag?).getD false

/-- The list under a key, if there is one. -/
def listAt? {α : Type} (c : Codec α) (key : String) (x : Json) : Option (List α) :=
  ((x.get? key).bind items?).map fun xs => xs.map c.ofCanonical

/-- A member that is written only when there is something to write. -/
def member? {α : Type} (key : String) (write : α → Json) : Option α → List (String × Json)
  | some a => [(key, write a)]
  | none => []

end Json

end TrafficGate
