import TrafficGate.Decimal.Shortest
import TrafficGate.Json.Basic
import TrafficGate.Text.Hex
/-!
# JSON texts

`render` writes a value under a `Layout`, which says what stands before
an item, before a closing bracket, and between a key and its value. Two
layouts are in use: `compact`, without any blank, for requests, and
`indented`, one item a line under two spaces a level, for reports. Empty
lists and objects are closed at once under both.
-/

namespace TrafficGate

namespace Json

/-- How a character stands inside quotes. -/
def escaped (c : Char) : List Char :=
  if c = '"' then ['\\', '"']
  else if c = '\\' then ['\\', '\\']
  else if c = '\x08' then ['\\', 'b']
  else if c = '\x0c' then ['\\', 'f']
  else if c = '\n' then ['\\', 'n']
  else if c = '\r' then ['\\', 'r']
  else if c = '\t' then ['\\', 't']
  else if c.toNat < 0x20 then
    ['\\', 'u', '0', '0', Text.hexDigit (c.toNat / 16), Text.hexDigit (c.toNat % 16)]
  else [c]

/-- A text in quotes. -/
def quoted (s : String) : List Char := '"' :: s.toList.flatMap escaped ++ ['"']

/-- The text of a number. -/
def Number.chars : Number → List Char
  | .natural n => (toString n).toList
  | .negative n => '-' :: (toString n).toList
  | .binary x => (Decimal.text x).toList

/-- What a printer puts around the items of a list and the members of an
object: `gap` before each item and, one level up, before the closing
bracket; `colon` between a key and its value. -/
structure Layout where
  gap : Nat → List Char
  colon : List Char

/-- No blanks at all. -/
def Layout.compact : Layout := ⟨fun _ => [], [':']⟩

/-- Every item on its own line, two spaces further in at each level. -/
def Layout.indented : Layout := ⟨fun level => '\n' :: List.replicate (2 * level) ' ', [':', ' ']⟩

mutual

/-- The characters of a value that stands at a level. -/
def render (layout : Layout) (level : Nat) : Json → List Char
  | null => "null".toList
  | flag true => "true".toList
  | flag false => "false".toList
  | number n => n.chars
  | text s => quoted s
  | list [] => ['[', ']']
  | list (x :: rest) =>
    '[' :: layout.gap (level + 1) ++ render layout (level + 1) x ++
      renderItems layout level rest ++ layout.gap level ++ [']']
  | object [] => ['\x7b', '\x7d']
  | object ((key, x) :: rest) =>
    '\x7b' :: layout.gap (level + 1) ++ quoted key ++ layout.colon ++
      render layout (level + 1) x ++ renderMembers layout level rest ++ layout.gap level ++
      ['\x7d']

/-- The items after the first, each behind a comma. -/
def renderItems (layout : Layout) (level : Nat) : List Json → List Char
  | [] => []
  | x :: rest =>
    ',' :: layout.gap (level + 1) ++ render layout (level + 1) x ++ renderItems layout level rest

/-- The members after the first, each behind a comma. -/
def renderMembers (layout : Layout) (level : Nat) : List (String × Json) → List Char
  | [] => []
  | (key, x) :: rest =>
    ',' :: layout.gap (level + 1) ++ quoted key ++ layout.colon ++
      render layout (level + 1) x ++ renderMembers layout level rest

end

/-- The text of a value without blanks. -/
def compact (x : Json) : String := String.ofList (render .compact 0 x)

/-- The text of a value, an item a line. -/
def indented (x : Json) : String := String.ofList (render .indented 0 x)

end Json

end TrafficGate
