import TrafficGate.Text.Utf8
/-!
# A place in a YAML document

In YAML the column at which something begins decides what it belongs to.
A `Cursor` is what is left of a document together with the line and the
column it begins at; `Cursor.settle` goes over blanks, line ends and
comments to the next thing that counts.
-/

namespace TrafficGate

namespace Yaml

/-- What is left of a document, and where it begins. -/
structure Cursor where
  rest : List Char
  column : Nat
  line : Nat
  deriving Repr, Inhabited

def isSpace (c : Char) : Bool := c = ' ' || c = '\t'

/-- Whether a text is at its end or goes on with a blank or a line end. -/
def atGap : List Char → Bool
  | [] => true
  | c :: _ => isSpace c || c = '\n'

namespace Cursor

/-- One character on. -/
def next (k : Cursor) : Cursor :=
  match k.rest with
  | [] => k
  | '\n' :: rest => ⟨rest, 0, k.line + 1⟩
  | _ :: rest => ⟨rest, k.column + 1, k.line⟩

/-- Some characters on, which hold no line end. -/
def advance (k : Cursor) (n : Nat) : Cursor := ⟨k.rest.drop n, k.column + n, k.line⟩

/-- Goes over blanks, line ends and comments. Inside brackets tabs are
blanks everywhere; outside they are only as far as the line goes on, and
only where no key may begin, as `tabs` says. -/
def settleFrom (inFlow : Bool) (tabs comment : Bool) : List Char → Nat → Nat → Cursor
  | [], column, line => ⟨[], column, line⟩
  | c :: rest, column, line =>
    if c = '\n' then settleFrom inFlow inFlow false rest 0 (line + 1)
    else if comment || c = ' ' || (c = '\t' && tabs) then
      settleFrom inFlow tabs comment rest (column + 1) line
    else if c = '#' then settleFrom inFlow tabs true rest (column + 1) line
    else ⟨c :: rest, column, line⟩

/-- The next thing that counts outside brackets. -/
def settle (tabs : Bool) (k : Cursor) : Cursor :=
  settleFrom false tabs false k.rest k.column k.line

/-- The next thing that counts inside brackets. -/
def settleFlow (k : Cursor) : Cursor := settleFrom true true false k.rest k.column k.line

/-- Whether a mark of three characters begins here. -/
def isMark (mark : List Char) (column : Nat) (cs : List Char) : Bool :=
  column = 0 && cs.take 3 = mark && atGap (cs.drop 3)

/-- Whether a document begins or ends here. -/
def isBoundary (k : Cursor) : Bool :=
  isMark ['-', '-', '-'] k.column k.rest || isMark ['.', '.', '.'] k.column k.rest

/-- Whether nothing more of the document follows. -/
def isOver (k : Cursor) : Bool := k.rest.isEmpty || k.isBoundary

/-- Whether the dash of a list item stands here. -/
def isDash (k : Cursor) : Bool :=
  match k.rest with
  | '-' :: rest => atGap rest
  | _ => false

/-- Whether the colon behind a key stands here. -/
def isColon (k : Cursor) : Bool :=
  match k.rest with
  | ':' :: rest => atGap rest
  | _ => false

end Cursor

end Yaml

end TrafficGate
