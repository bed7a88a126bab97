import TrafficGate.Json.Fault
import TrafficGate.Text.Hex
import TrafficGate.Text.Utf8
/-!
# The leaves of a JSON text

Blanks, words, texts in quotes and numbers, read from the front of what
is left of a document. A `Reader` gives what it read and what is left, or
the first fault. Documents are read as `Utf8.Piece`s: bytes that form no
character are refused inside a text in quotes, at its closing quote, and
begin no value elsewhere.
-/

namespace TrafficGate

namespace Json

open Utf8 (Piece)

/-- Reads from the front of what is left of a document. -/
abbrev Reader (α : Type) := List Piece → Except Fault (α × List Piece)

/-- The blanks of JSON. -/
def isGap (c : Char) : Bool := c = ' ' || c = '\n' || c = '\t' || c = '\r'

/-- What is left behind leading blanks. -/
def skipGaps : List Piece → List Piece
  | .char c :: rest => if isGap c then skipGaps rest else .char c :: rest
  | ps => ps

/-- Reads the given characters, the rest of a `true`, `false` or `null`. -/
def word : List Char → List Piece → Except Fault (List Piece)
  | [], ps => .ok ps
  | _ :: _, [] => .error .endInValue
  | c :: cs, p :: ps => if p = .char c then word cs ps else .error .brokenWord

/-! ## Texts in quotes -/

/-- The number of bytes that are left. -/
def byteCount (ps : List Piece) : Nat := ps.foldl (fun n p => n + p.size) 0

/-- The four hexadecimal digits behind `\u`. With fewer than four bytes
left the text has ended. -/
def hexUnit (ps : List Piece) : Except Fault Nat :=
  match (ps.take 4).mapM fun p => p.char?.bind Text.hexValue? with
  | some [a, b, c, d] => .ok (((a * 16 + b) * 16 + c) * 16 + d)
  | _ => if byteCount (ps.take 4) < 4 then .error .endInText else .error .invalidEscape

/-- The first half of a pair of surrogates. -/
def isLeading (n : Nat) : Bool := 0xD800 ≤ n && n ≤ 0xDBFF

/-- The second half of a pair of surrogates. -/
def isTrailing (n : Nat) : Bool := 0xDC00 ≤ n && n ≤ 0xDFFF

/-- What an escape of one letter stands for. -/
def shortEscape? (c : Char) : Option Char :=
  if c = '"' then some '"'
  else if c = '\\' then some '\\'
  else if c = '/' then some '/'
  else if c = 'b' then some '\x08'
  else if c = 'f' then some '\x0c'
  else if c = 'n' then some '\n'
  else if c = 'r' then some '\r'
  else if c = 't' then some '\t'
  else none

/-- The second half of a pair of surrogates, behind its first half: the
character of the pair, and the six pieces the half takes. -/
def secondHalf (first : Nat) : List Piece → Except Fault Char
  | [] => .error .endInText
  | .char '\\' :: [] => .error .endInText
  | .char '\\' :: .char 'u' :: rest => do
    let second ← hexUnit rest
    if isTrailing second then
      .ok (Char.ofNat ((first - 0xD800) * 0x400 + (second - 0xDC00) + 0x10000))
    else .error .loneSurrogate
  | _ => .error .endOfEscape

/-- The escape behind a backslash: its character and how many pieces it
takes. Surrogates stand in pairs. -/
def escape : List Piece → Except Fault (Char × Nat)
  | [] => .error .endInText
  | .broken _ :: _ => .error .invalidEscape
  | .char e :: rest =>
    match shortEscape? e with
    | some c => .ok (c, 1)
    | none =>
      if e = 'u' then do
        let unit ← hexUnit rest
        if isTrailing unit then .error .loneSurrogate
        else if isLeading unit then do
          let c ← secondHalf unit (rest.drop 4)
          .ok (c, 11)
        else .ok (Char.ofNat unit, 5)
      else .error .invalidEscape

/-- The characters up to the closing quote, whether bytes that form no
character stand among them, and what is left. The first argument counts
the pieces that an escape has already accounted for. -/
def textBody : Nat → List Piece → Except Fault (List Char × Bool × List Piece)
  | _, [] => .error .endInText
  | skip + 1, _ :: rest => textBody skip rest
  | 0, .broken _ :: rest => do
    let (cs, _, left) ← textBody 0 rest
    .ok (cs, true, left)
  | 0, .char c :: rest =>
    if c = '"' then .ok ([], false, rest)
    else if c = '\\' then do
      let (e, taken) ← escape rest
      let (cs, broken, left) ← textBody taken rest
      .ok (e :: cs, broken, left)
    else if c.toNat < 0x20 then .error .controlCharacter
    else do
      let (cs, broken, left) ← textBody 0 rest
      .ok (c :: cs, broken, left)

/-- A text, behind its opening quote. -/
def quotedText : Reader String := fun ps => do
  let (cs, broken, left) ← textBody 0 ps
  if broken then .error .invalidUnicode else .ok (String.ofList cs, left)

/-- How many pieces an escape takes in a text that nobody looks at:
surrogates need not pair up there. -/
def skipEscape : List Piece → Except Fault Nat
  | [] => .error .endInText
  | .broken _ :: _ => .error .invalidEscape
  | .char e :: rest =>
    match shortEscape? e with
    | some _ => .ok 1
    | none =>
      if e = 'u' then do
        let _ ← hexUnit rest
        .ok 5
      else .error .invalidEscape

/-- What is left behind a text that nobody looks at. -/
def skipTextBody : Nat → List Piece → Except Fault (List Piece)
  | _, [] => .error .endInText
  | skip + 1, _ :: rest => skipTextBody skip rest
  | 0, .broken _ :: rest => skipTextBody 0 rest
  | 0, .char c :: rest =>
    if c = '"' then .ok rest
    else if c = '\\' then do
      let taken ← skipEscape rest
      skipTextBody taken rest
    else if c.toNat < 0x20 then .error .controlCharacter
    else skipTextBody 0 rest

/-! ## Numbers -/

/-- The value of a decimal digit. -/
def digitValue? : Piece → Option Nat
  | .char c => Text.decimalValue? c
  | .broken _ => none

/-- The leading digits and what is left behind them. -/
def digitRun : List Piece → List Nat × List Piece
  | [] => ([], [])
  | p :: rest =>
    match digitValue? p with
    | some d => (d :: (digitRun rest).1, (digitRun rest).2)
    | none => ([], p :: rest)

/-- The greatest natural that is kept exactly. -/
def maxNatural : Nat := 18446744073709551615

/-- The greatest distance below zero of an integer that is kept exactly. -/
def maxBelowZero : Nat := 9223372036854775808

/-- Appends digits to a number as long as it stays within `maxNatural`:
the number, and how many digits did not go in. -/
def absorb (value : Nat) : List Nat → Nat × Nat
  | [] => (value, 0)
  | d :: ds =>
    if value * 10 + d ≤ maxNatural then absorb (value * 10 + d) ds else (value, (d :: ds).length)

/-- A finite number of binary floating point, with its sign. -/
def binaryNumber (negative : Bool) (significand : Nat) (exponent : Int) : Except Fault Number :=
  match Decimal.Binary64.ofDecimal? significand exponent with
  | some x => .ok (.binary (if negative then x.neg else x))
  | none => .error .numberOutOfRange

/-- The exponent behind `e`, signed, and what is left. -/
def exponentPart (ps : List Piece) : Except Fault (Int × List Piece) :=
  let (negative, ps) : Bool × List Piece :=
    match ps with
    | .char '+' :: rest => (false, rest)
    | .char '-' :: rest => (true, rest)
    | _ => (false, ps)
  match digitRun ps with
  | ([], []) => .error .endInValue
  | ([], _ :: _) => .error .invalidNumber
  | (ds, left) =>
    let n : Nat := ds.foldl (fun acc d => acc * 10 + d) 0
    .ok (if negative then -(n : Int) else n, left)

/-- Exponents beyond this bound decide a number by themselves. -/
def maxExponent : Int := 2147483647

/-- A number without an exponent. One that was written as an integer stays
exact as far as the format goes; minus zero does not. -/
def plainNumber (negative : Bool) (significand : Nat) (exponent : Int) (whole : Bool) :
    Except Fault Number :=
  if whole then
    if !negative then .ok (.natural significand)
    else if significand = 0 || maxBelowZero < significand then binaryNumber true significand 0
    else .ok (.negative significand)
  else binaryNumber negative significand exponent

/-- A number with an exponent. -/
def scaledNumber (negative : Bool) (significand : Nat) (exponent scale : Int) :
    Except Fault Number :=
  if scale.natAbs ≤ maxExponent.natAbs then binaryNumber negative significand (exponent + scale)
  else if significand = 0 || scale < 0 then .ok (.binary (.zero negative))
  else .error .numberOutOfRange

/-- A number whose digits and fraction are read: an exponent may follow. -/
def numeralEnd (negative : Bool) (significand : Nat) (exponent : Int) (whole : Bool)
    (ps : List Piece) : Except Fault (Number × List Piece) :=
  match ps with
  | .char c :: rest =>
    if c = 'e' || c = 'E' then do
      let (scale, left) ← exponentPart rest
      let n ← scaledNumber negative significand exponent scale
      .ok (n, left)
    else do
      let n ← plainNumber negative significand exponent whole
      .ok (n, ps)
  | _ => do
    let n ← plainNumber negative significand exponent whole
    .ok (n, ps)

/-- The fraction, if there is one, and the rest of a number. -/
def numeralRest (negative : Bool) (significand dropped : Nat) : Reader Number := fun ps =>
  match ps with
  | .char '.' :: rest =>
    match digitRun rest with
    | ([], []) => .error .endInValue
    | ([], _ :: _) => .error .invalidNumber
    | (ds, left) =>
      let (value, late) := absorb significand ds
      numeralEnd negative value ((dropped : Int) - (ds.length - late : Nat)) false left
  | _ => numeralEnd negative significand dropped (dropped = 0) ps

/-- A number behind its sign. Digits beyond the sixty-fourth bit count
only as powers of ten. -/
def numeral (negative : Bool) : Reader Number := fun ps =>
  match digitRun ps with
  | ([], []) => .error .endInValue
  | ([], _ :: _) => .error .invalidNumber
  | (0 :: _ :: _, _) => .error .invalidNumber
  | (ds, left) =>
    let (value, dropped) := absorb 0 ds
    numeralRest negative value dropped left

/-- What is left behind a number that nobody looks at. -/
def skipNumber (ps : List Piece) : Except Fault (List Piece) :=
  match digitRun ps with
  | ([], _) => .error .invalidNumber
  | (0 :: _ :: _, _) => .error .invalidNumber
  | (_, left) => fraction left
where
  exponent (ps : List Piece) : Except Fault (List Piece) :=
    match ps with
    | .char c :: rest =>
      if c = 'e' || c = 'E' then
        let rest :=
          match rest with
          | .char '+' :: rest => rest
          | .char '-' :: rest => rest
          | _ => rest
        match digitRun rest with
        | ([], _) => .error .invalidNumber
        | (_, left) => .ok left
      else .ok ps
    | _ => .ok ps
  fraction (ps : List Piece) : Except Fault (List Piece) :=
    match ps with
    | .char '.' :: rest =>
      match digitRun rest with
      | ([], _) => .error .invalidNumber
      | (_, left) => exponent left
    | _ => exponent ps

end Json

end TrafficGate
