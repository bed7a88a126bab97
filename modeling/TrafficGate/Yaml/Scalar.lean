import TrafficGate.Text.Hex
import TrafficGate.Yaml.Cursor
/-!
# Scalars of YAML

A scalar is plain, or stands in single or double quotes. Over several
lines it is folded: one line end becomes a space, and of more the first
is dropped. A plain scalar ends at a comment, at the colon behind a key,
at a line that is not indented enough, and inside brackets at whatever
separates items.
-/

namespace TrafficGate

namespace Yaml

/-- What stands between two pieces of a scalar: blanks on one line, or
some line ends, or line ends the first of which is escaped. -/
inductive Gap where
  | blanks (cs : List Char)
  | lines (count : Nat)
  | escaped (more : Nat)
  deriving Repr, Inhabited

/-- The folded form of a gap, in reverse. -/
def Gap.folded : Gap → List Char
  | blanks cs => cs
  | lines 1 => [' ']
  | lines n => List.replicate (n - 1) '\n'
  | escaped n => List.replicate n '\n'

/-- The gap with one more line end. -/
def Gap.breakLine : Gap → Gap
  | blanks _ => lines 1
  | lines n => lines (n + 1)
  | escaped n => escaped (n + 1)

/-- The gap with one more blank; behind a line end it does not count. -/
def Gap.blank (c : Char) : Gap → Gap
  | blanks cs => blanks (c :: cs)
  | gap => gap

def Gap.isEmpty : Gap → Bool
  | blanks [] => true
  | _ => false

/-! ## Plain scalars -/

/-- The characters that separate items inside brackets. -/
def isFlowMark (c : Char) : Bool := [',', '[', ']', '\x7b', '\x7d'].contains c

/-- Whether a plain scalar begins here. -/
def startsPlain (inFlow : Bool) : List Char → Bool
  | [] => false
  | c :: rest =>
    if c = '-' then !(rest.head?.any isSpace)
    else if c = '?' || c = ':' then !inFlow && !atGap rest
    else
      !(isSpace c || c = '\n' || isFlowMark c ||
        ['#', '&', '*', '!', '|', '>', '\'', '"', '%', '@', '\x60'].contains c)

/-- Where a plain scalar ends: at its last character, or for good because
the document is broken there. -/
inductive PlainStep where
  | more
  | stop
  | broken

/-- What to do at a character that is no blank. -/
def plainStep (inFlow : Bool) (minColumn : Nat) (gap : Gap) (c : Char) (rest : List Char)
    (column : Nat) : PlainStep :=
  let behindLine := match gap with
    | .blanks _ => false
    | _ => true
  if behindLine && !inFlow && column < minColumn then .stop
  else if behindLine && (Cursor.isMark ['-', '-', '-'] column (c :: rest) ||
      Cursor.isMark ['.', '.', '.'] column (c :: rest)) then .stop
  else if c = '#' && !gap.isEmpty then .stop
  else if c = ':' && inFlow && (rest.head?.any fun d => isFlowMark d || d = '?') then .broken
  else if c = ':' && atGap rest then .stop
  else if inFlow && isFlowMark c then .stop
  else .more

/-- The characters of a plain scalar behind those read already, which are
in reverse, and the place where it ends. -/
def plainFrom (inFlow : Bool) (minColumn : Nat) :
    List Char → Gap → List Char → Nat → Nat → Option (List Char × Cursor)
  | read, _, [], column, line => some (read, ⟨[], column, line⟩)
  | read, gap, c :: rest, column, line =>
    if c = '\n' then plainFrom inFlow minColumn read gap.breakLine rest 0 (line + 1)
    else if isSpace c then
      match gap with
      | .blanks cs => plainFrom inFlow minColumn read (.blanks (c :: cs)) rest (column + 1) line
      | gap =>
        if c = '\t' && column < minColumn then none
        else plainFrom inFlow minColumn read gap rest (column + 1) line
    else
      match plainStep inFlow minColumn gap c rest column with
      | .broken => none
      | .stop => some (read, ⟨c :: rest, column, line⟩)
      | .more =>
        plainFrom inFlow minColumn (c :: (gap.folded ++ read)) (.blanks []) rest (column + 1) line

/-- A plain scalar. Outside brackets its lines after the first begin at
the given column or later. -/
def plainScalar (inFlow : Bool) (minColumn : Nat) (k : Cursor) : Option (String × Cursor) :=
  (plainFrom inFlow minColumn [] (.blanks []) k.rest k.column k.line).map fun r =>
    (String.ofList r.1.reverse, r.2)

/-! ## Scalars in quotes -/

/-- A scalar in single quotes, behind the opening one. A quote in it is
written twice. -/
def singleFrom : List Char → Gap → List Char → Nat → Nat → Option (List Char × Cursor)
  | _, _, [], _, _ => none
  | read, gap, '\'' :: '\'' :: rest, column, line =>
    singleFrom ('\'' :: (gap.folded ++ read)) (.blanks []) rest (column + 2) line
  | read, gap, c :: rest, column, line =>
    if (Cursor.mk (c :: rest) column line).isBoundary then none
    else if c = '\'' then some (gap.folded ++ read, ⟨rest, column + 1, line⟩)
    else if c = '\n' then singleFrom read gap.breakLine rest 0 (line + 1)
    else if isSpace c then singleFrom read (gap.blank c) rest (column + 1) line
    else singleFrom (c :: (gap.folded ++ read)) (.blanks []) rest (column + 1) line

/-- What an escape of one letter stands for. -/
def shortEscape? : Char → Option Char
  | '0' => some '\x00'
  | 'a' => some '\x07'
  | 'b' => some '\x08'
  | 't' => some '\t'
  | '\t' => some '\t'
  | 'n' => some '\n'
  | 'v' => some '\x0b'
  | 'f' => some '\x0c'
  | 'r' => some '\r'
  | 'e' => some '\x1b'
  | ' ' => some ' '
  | '"' => some '"'
  | '/' => some '/'
  | '\\' => some '\\'
  | 'N' => some '\u0085'
  | '_' => some '\u00a0'
  | 'L' => some '\u2028'
  | 'P' => some '\u2029'
  | _ => none

/-- How many digits follow the letter of a numeric escape. -/
def escapeLength? : Char → Option Nat
  | 'x' => some 2
  | 'u' => some 4
  | 'U' => some 8
  | _ => none

/-- The character of a numeric escape of so many digits. -/
def numericEscape? (count : Nat) (cs : List Char) : Option Char := do
  let digits ← (cs.take count).mapM Text.hexValue?
  if digits.length < count then none
  else
    let n := digits.foldl (fun n d => n * 16 + d) 0
    if (0xD800 ≤ n && n ≤ 0xDFFF) || 0x10FFFF < n then none else some (Char.ofNat n)

/-- A scalar in double quotes, behind the opening one. The first argument
counts the characters that an escape has already accounted for; a line
end behind a backslash is dropped, with the blanks that follow it. -/
def doubleFrom :
    Nat → List Char → Gap → List Char → Nat → Nat → Option (List Char × Cursor)
  | _, _, _, [], _, _ => none
  | skip + 1, read, gap, _ :: rest, column, line => doubleFrom skip read gap rest (column + 1) line
  | 0, read, gap, c :: rest, column, line =>
    if (Cursor.mk (c :: rest) column line).isBoundary then none
    else if c = '"' then some (gap.folded ++ read, ⟨rest, column + 1, line⟩)
    else if c = '\n' then doubleFrom 0 read gap.breakLine rest 0 (line + 1)
    else if isSpace c then doubleFrom 0 read (gap.blank c) rest (column + 1) line
    else if c = '\\' then
      match rest with
      | [] => none
      | '\n' :: rest => doubleFrom 0 (gap.folded ++ read) (.escaped 0) rest 0 (line + 1)
      | e :: rest =>
        match shortEscape? e with
        | some x =>
          doubleFrom 0 (x :: (gap.folded ++ read)) (.blanks []) rest (column + 2) line
        | none =>
          match escapeLength? e with
          | none => none
          | some count =>
            match numericEscape? count rest with
            | none => none
            | some x =>
              doubleFrom count (x :: (gap.folded ++ read)) (.blanks []) rest (column + 2) line
    else doubleFrom 0 (c :: (gap.folded ++ read)) (.blanks []) rest (column + 1) line

/-- A scalar in quotes. -/
def quotedScalar (k : Cursor) : Option (String × Cursor) :=
  match k.rest with
  | '\'' :: rest => finish (singleFrom [] (.blanks []) rest (k.column + 1) k.line)
  | '"' :: rest => finish (doubleFrom 0 [] (.blanks []) rest (k.column + 1) k.line)
  | _ => none
where
  finish (r : Option (List Char × Cursor)) : Option (String × Cursor) :=
    r.map fun r => (String.ofList r.1.reverse, r.2)

end Yaml

end TrafficGate
