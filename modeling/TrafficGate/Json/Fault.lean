import TrafficGate.Decimal.Shortest
import TrafficGate.Json.Basic
import TrafficGate.Text.Shown
/-!
# Why a JSON text or value is refused

The first problem met while reading, with its wording. Problems of form
(a text that is no JSON) and of content (a member that is missing, of a
wrong kind, given twice) are faults alike: reading is one pass, and
whichever comes first is reported.
-/

namespace TrafficGate

namespace Json

/-- The kind of value that stands where another was expected. -/
inductive Found where
  | null
  | flag (b : Bool)
  | number (n : Number)
  | text (s : String)
  | list
  | object
  deriving DecidableEq, Repr, Inhabited

namespace Found

/-- What kind of value a value is. -/
def ofValue : Json → Found
  | .null => null
  | .flag b => flag b
  | .number n => number n
  | .text s => text s
  | .list _ => list
  | .object _ => object

def wording : Found → String
  | null => "null"
  | flag true => "boolean \x60true\x60"
  | flag false => "boolean \x60false\x60"
  | number (.natural n) => "integer \x60" ++ toString n ++ "\x60"
  | number (.negative n) => "integer \x60-" ++ toString n ++ "\x60"
  | number (.binary x) => "floating point \x60" ++ Decimal.text x ++ "\x60"
  | text s => "string " ++ Text.shown s
  | list => "sequence"
  | object => "map"

end Found

/-- A record kind as faults name it: its name and how many fields it has. -/
structure RecordKind where
  name : String
  size : Nat
  deriving DecidableEq, Repr, Inhabited

namespace RecordKind

def wording (r : RecordKind) : String := "struct " ++ r.name

/-- The record kind with its size, as a list that is too short is told. -/
def sizeWording (r : RecordKind) : String :=
  r.wording ++ " with " ++ toString r.size ++ (if r.size = 1 then " element" else " elements")

end RecordKind

/-- What was expected where a value of another kind stands. -/
inductive Expected where
  | text
  | flag
  | list
  | record (kind : RecordKind)
  | nothing
  | wordName
  | wordOrObject
  deriving DecidableEq, Repr, Inhabited

def Expected.wording : Expected → String
  | text => "a string"
  | flag => "a boolean"
  | list => "a sequence"
  | record kind => kind.wording
  | nothing => "unit"
  | wordName => "variant identifier"
  | wordOrObject => "string or map"

/-- Names in a row, as a choice among them is worded. -/
def choiceWording (names : List String) : String :=
  let marked := names.map fun name => "\x60" ++ name ++ "\x60"
  match marked with
  | [a] => a
  | [a, b] => a ++ " or " ++ b
  | _ => "one of " ++ ", ".intercalate marked

/-- The first problem met in a JSON text or value. -/
inductive Fault where
  /-- The text ends where a value has to begin. -/
  | endInValue
  | endInList
  | endInObject
  | endInText
  /-- Something that begins no value. -/
  | noValue
  /-- A broken `true`, `false` or `null`. -/
  | brokenWord
  | noColon
  | noListDelimiter
  | noObjectDelimiter
  | keyNotText
  | trailingComma
  | trailingCharacters
  | invalidNumber
  | numberOutOfRange
  | invalidEscape
  /-- A leading surrogate without its trailing one, or the reverse. -/
  | loneSurrogate
  /-- A leading surrogate that no further escape follows. -/
  | endOfEscape
  | invalidUnicode
  | controlCharacter
  | duplicateField (name : String)
  | missingField (name : String)
  | unknownWord (given : String) (names : List String)
  | wrongKind (found : Found) (expected : Expected)
  /-- A list too short for the record it stands for. -/
  | tooShort (length : Nat) (kind : RecordKind)
  /-- A list too long for the record it stands for. -/
  | tooLong (length : Nat)
  /-- An object that names a word has exactly one member. -/
  | notOneMember
  deriving DecidableEq, Repr, Inhabited

def Fault.message : Fault → String
  | endInValue => "EOF while parsing a value"
  | endInList => "EOF while parsing a list"
  | endInObject => "EOF while parsing an object"
  | endInText => "EOF while parsing a string"
  | noValue => "expected value"
  | brokenWord => "expected ident"
  | noColon => "expected \x60:\x60"
  | noListDelimiter => "expected \x60,\x60 or \x60]\x60"
  | noObjectDelimiter => "expected \x60,\x60 or \x60\x7d\x60"
  | keyNotText => "key must be a string"
  | trailingComma => "trailing comma"
  | trailingCharacters => "trailing characters"
  | invalidNumber => "invalid number"
  | numberOutOfRange => "number out of range"
  | invalidEscape => "invalid escape"
  | loneSurrogate => "lone leading surrogate in hex escape"
  | endOfEscape => "unexpected end of hex escape"
  | invalidUnicode => "invalid unicode code point"
  | controlCharacter => "control character (\\u0000-\\u001F) found while parsing a string"
  | duplicateField name => "duplicate field \x60" ++ name ++ "\x60"
  | missingField name => "missing field \x60" ++ name ++ "\x60"
  | unknownWord given names =>
    "unknown variant \x60" ++ given ++ "\x60, expected " ++ choiceWording names
  | wrongKind found expected =>
    "invalid type: " ++ found.wording ++ ", expected " ++ expected.wording
  | tooShort length kind =>
    "invalid length " ++ toString length ++ ", expected " ++ kind.sizeWording
  | tooLong length =>
    "invalid length " ++ toString length ++ ", expected fewer elements in array"
  | notOneMember => "invalid value: map, expected map with a single key"

end Json

end TrafficGate
