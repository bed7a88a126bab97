import TrafficGate.Decimal.Binary64
/-!
# JSON values

The values that the API speaks and that reports are made of. An object
keeps its members in the order in which they were written; `ordered`
gives the form of a value that has been held in memory, with the members
of every object in the order of their keys and the last of several
members of one key.
-/

namespace TrafficGate

namespace Json

/-- A number of a JSON text: a natural below 2^64, a negative integer down
to -2^63, and everything else rounded to binary floating point. -/
inductive Number where
  | natural (n : Nat)
  | negative (n : Nat)
  | binary (x : Decimal.Binary64)
  deriving DecidableEq, Repr, Inhabited

end Json

/-- A JSON value. -/
inductive Json where
  | null
  | flag (b : Bool)
  | number (n : Json.Number)
  | text (s : String)
  | list (items : List Json)
  | object (members : List (String × Json))
  deriving Repr, Inhabited

namespace Json

/-- The value of the first pair with a key. -/
def lookup? (key : String) (members : List (String × Json)) : Option Json :=
  (members.find? (·.1 == key)).map (·.2)

/-- The member of an object under a key; nothing for a value of another kind. -/
def get? (key : String) : Json → Option Json
  | object members => lookup? key members
  | _ => none

def text? : Json → Option String
  | text s => some s
  | _ => none

def flag? : Json → Option Bool
  | flag b => some b
  | _ => none

def natural? : Json → Option Nat
  | number (.natural n) => some n
  | _ => none

def items? : Json → Option (List Json)
  | list items => some items
  | _ => none

def isNull : Json → Bool
  | null => true
  | _ => false

/-- A natural number as a value. -/
def ofNat (n : Nat) : Json := number (.natural n)

/-- A text, or null. -/
def textOrNull : Option String → Json
  | some s => text s
  | none => null

/-- A list of texts. -/
def ofTexts (xs : List String) : Json := list (xs.map text)

/-! ## Members in the order of their keys -/

/-- Puts a member where its key belongs; an equal key is replaced. -/
def insertMember (key : String) (value : Json) : List (String × Json) → List (String × Json)
  | [] => [(key, value)]
  | (k, v) :: rest =>
    if key < k then (key, value) :: (k, v) :: rest
    else if key = k then (key, value) :: rest
    else (k, v) :: insertMember key value rest

/-- Members by key, the last one of each key. -/
def orderMembers (members : List (String × Json)) : List (String × Json) :=
  members.foldl (fun acc m => insertMember m.1 m.2 acc) []

mutual

/-- The value with the members of every object in the order of their keys. -/
def ordered : Json → Json
  | list items => list (orderedItems items)
  | object members => object (orderMembers (orderedMembers members))
  | null => null
  | flag b => flag b
  | number n => number n
  | text s => text s

/-- `ordered` for each item. -/
def orderedItems : List Json → List Json
  | [] => []
  | x :: rest => ordered x :: orderedItems rest

/-- `ordered` for the value of each member. -/
def orderedMembers : List (String × Json) → List (String × Json)
  | [] => []
  | (k, x) :: rest => (k, ordered x) :: orderedMembers rest

end

end Json

end TrafficGate
