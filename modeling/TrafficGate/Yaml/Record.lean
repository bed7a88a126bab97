import TrafficGate.Yaml.Node
/-!
# Values out of a YAML document

What a node means depends on what is asked of it. Any scalar can be a
text; only a plain one can be a flag, a number or nothing. A record takes
a mapping with texts for keys, passes over the keys it does not know, and
takes each it knows at most once; nothing is a record without fields.
-/

namespace TrafficGate

namespace Yaml

namespace Node

def text? : Node → Option String
  | .scalar text _ => some text
  | _ => none

/-- The text of a plain scalar. -/
def plain? : Node → Option String
  | .scalar text true => some text
  | _ => none

def isNull (x : Node) : Bool := x.plain?.any (["", "null", "Null", "NULL", "~"].contains ·)

def flag? (x : Node) : Option Bool := do
  let s ← x.plain?
  if ["true", "True", "TRUE"].contains s then some true
  else if ["false", "False", "FALSE"].contains s then some false
  else none

/-- A number to a base, of at least one digit. -/
def digits? (base : Nat) (cs : List Char) : Option Nat :=
  if cs.isEmpty then none
  else
    cs.foldlM (fun n c => do
      let d ← Text.hexValue? c
      if d < base then some (n * base + d) else none) 0

/-- A number as plain scalars write it: to base ten without leading zeros,
or to base sixteen, eight or two behind a mark of its own, and with or
without a plus sign. -/
def numeral? (cs : List Char) : Option Nat :=
  let cs := if cs.head? = some '+' then cs.drop 1 else cs
  match cs with
  | '0' :: 'x' :: rest => digits? 16 rest
  | '0' :: 'o' :: rest => digits? 8 rest
  | '0' :: 'b' :: rest => digits? 2 rest
  | '0' :: _ :: _ => none
  | cs => digits? 10 cs

/-- A number of at most so many bits. -/
def count? (bits : Nat) (x : Node) : Option Nat := do
  let s ← x.plain?
  let n ← numeral? s.toList
  if n < Nat.pow 2 bits then some n else none

/-- Nothing, or what is read otherwise. -/
def optional? {α : Type} (read : Node → Option α) (x : Node) : Option (Option α) :=
  if x.isNull then some none else (read x).map some

/-- A list; the empty place is an empty one. -/
def list? {α : Type} (read : Node → Option α) : Node → Option (List α)
  | .list items => items.mapM read
  | .scalar "" true => some []
  | _ => none

end Node

/-- The fields of a record, those with known names. -/
abbrev Fields := List (String × Node)

/-- Takes the pairs of a mapping whose keys are among the given names,
each at most once. -/
def knownPairs (names : List String) : List (Node × Node) → Option Fields
  | [] => some []
  | (key, x) :: rest => do
    let name ← key.text?
    let fields ← knownPairs names rest
    if !names.contains name then some fields
    else if fields.any (·.1 == name) then none
    else some ((name, x) :: fields)

/-- The fields of a record of the given names. -/
def Node.record? (names : List String) (x : Node) : Option Fields :=
  match x with
  | .mapping pairs => knownPairs names pairs
  | x => if x.isNull then some [] else none

namespace Fields

variable {α : Type}

/-- A field that has to be there. -/
def required? (fields : Fields) (name : String) (read : Node → Option α) : Option α := do
  let x ← fields.lookup name
  read x

/-- A field with a value of its own when it is not there. -/
def defaulted? (fields : Fields) (name : String) (read : Node → Option α) (default : α) :
    Option α :=
  match fields.lookup name with
  | some x => read x
  | none => some default

/-- A field that may be nothing. -/
def optional? (fields : Fields) (name : String) (read : Node → Option α) : Option (Option α) :=
  fields.defaulted? name (Node.optional? read) none

end Fields

end Yaml

end TrafficGate
