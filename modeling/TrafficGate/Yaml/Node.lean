import TrafficGate.Yaml.Scalar
/-!
# Documents of YAML

`Node.ofBytes?` reads a document: mappings and lists, laid out by columns
or written between brackets, and scalars. Of the language this is the part
that configuration is written in; anchors, tags, directives, block scalars
and keys behind a question mark are refused, and so is a second document.

What may stand in a place is told by a least column: something that begins
before it belongs to what encloses the place, and the place is empty.
-/

namespace TrafficGate

namespace Yaml

/-- What a document holds. A plain scalar may be read as something other
than its text; an empty place holds the empty plain scalar. -/
inductive Node where
  | scalar (text : String) (isPlain : Bool)
  | list (items : List Node)
  | mapping (pairs : List (Node × Node))
  deriving Repr, Inhabited

namespace Node

/-- What an empty place holds. -/
def empty : Node := .scalar "" true

/-! ## Between brackets -/

/-- Whether a colon can belong to a key that begins at another place: both
stand on one line, and not too far apart. -/
def reaches (key colon : Cursor) : Bool :=
  colon.line = key.line && colon.column ≤ key.column + 1024

/-- The colon behind a key in brackets: none, or the place behind it, as
far as it belongs to the key. -/
def colonOf (key k : Cursor) : Option (Option Cursor) :=
  match k.rest with
  | ':' :: _ => if reaches key k then some (some (k.advance 1)) else none
  | _ => some none

/-- Whether an item in brackets is empty: its end follows at once. -/
def endsItem (k : Cursor) : Bool :=
  match k.rest with
  | c :: _ => [',', ']', '\x7d'].contains c
  | [] => true

mutual

/-- What begins here, between brackets. -/
def flow (minColumn : Nat) : Nat → Cursor → Option (Node × Cursor)
  | 0, _ => none
  | fuel + 1, k =>
    match k.rest with
    | [] => none
    | '[' :: _ => do
      let (items, k) ← flowItems minColumn fuel (k.advance 1).settleFlow
      some (.list items, k)
    | '\x7b' :: _ => do
      let (pairs, k) ← flowPairs minColumn fuel (k.advance 1).settleFlow
      some (.mapping pairs, k)
    | '\'' :: _ => (quotedScalar k).map fun r => (.scalar r.1 false, r.2)
    | '"' :: _ => (quotedScalar k).map fun r => (.scalar r.1 false, r.2)
    | cs =>
      if k.isBoundary || k.isDash || !startsPlain true cs then none
      else (plainScalar true minColumn k).map fun r => (.scalar r.1 true, r.2)

/-- The value behind the colon of a key in brackets. -/
def flowValue (minColumn : Nat) : Nat → Cursor → Option (Node × Cursor)
  | 0, _ => none
  | fuel + 1, k => if endsItem k then some (empty, k) else flow minColumn fuel k

/-- The items of a list up to and with its bracket. An item may be a key
with its value, which makes it a mapping. -/
def flowItems (minColumn : Nat) : Nat → Cursor → Option (List Node × Cursor)
  | 0, _ => none
  | fuel + 1, k =>
    match k.rest with
    | ']' :: _ => some ([], k.advance 1)
    | _ => do
      let start := k
      let (x, k) ← flow minColumn fuel k
      let k := k.settleFlow
      let (item, k) ← match ← colonOf start k with
        | none => some (x, k)
        | some k => do
          let (v, k) ← flowValue minColumn fuel k.settleFlow
          some (.mapping [(x, v)], k.settleFlow)
      match k.rest with
      | ',' :: _ => do
        let (items, k) ← flowItems minColumn fuel (k.advance 1).settleFlow
        some (item :: items, k)
      | ']' :: _ => some ([item], k.advance 1)
      | _ => none

/-- The pairs of a mapping up to and with its brace. A key alone has the
empty value. -/
def flowPairs (minColumn : Nat) : Nat → Cursor → Option (List (Node × Node) × Cursor)
  | 0, _ => none
  | fuel + 1, k =>
    match k.rest with
    | '\x7d' :: _ => some ([], k.advance 1)
    | _ => do
      let start := k
      let (x, k) ← flow minColumn fuel k
      let k := k.settleFlow
      let (pair, k) ← match ← colonOf start k with
        | none => some ((x, empty), k)
        | some k => do
          let (v, k) ← flowValue minColumn fuel k.settleFlow
          some ((x, v), k.settleFlow)
      match k.rest with
      | ',' :: _ => do
        let (pairs, k) ← flowPairs minColumn fuel (k.advance 1).settleFlow
        some (pair :: pairs, k)
      | '\x7d' :: _ => some ([pair], k.advance 1)
      | _ => none

end

/-! ## Laid out by columns -/

/-- A scalar, or what brackets enclose, outside brackets. -/
def inline (minColumn fuel : Nat) (k : Cursor) : Option (Node × Cursor) :=
  match k.rest with
  | '[' :: _ => flow minColumn fuel k
  | '\x7b' :: _ => flow minColumn fuel k
  | '\'' :: _ => flow minColumn fuel k
  | '"' :: _ => flow minColumn fuel k
  | cs =>
    if !startsPlain false cs then none
    else (plainScalar false minColumn k).map fun r => (.scalar r.1 true, r.2)

/-- What may be the key of a mapping: what begins here, or the empty key
in front of a lone colon; and the colon, if the key has one on its line. -/
def keyed (minColumn fuel : Nat) (k : Cursor) : Option (Node × Option Cursor × Cursor) :=
  if k.isColon then some (empty, some k, k)
  else do
    let (x, after) ← inline minColumn fuel k
    let colon := after.settle true
    if reaches k colon && colon.isColon then some (x, some colon, after)
    else some (x, none, after)

mutual

/-- What stands in a place of at least the given column. A key may begin
here if `keys` says so; `besideKey` says that the place is the value of a
key, where the items of a list may stand in the column of the key. -/
def block (minColumn : Nat) (keys besideKey : Bool) : Nat → Cursor → Option (Node × Cursor)
  | 0, _ => none
  | fuel + 1, k =>
    if k.isOver then some (empty, k)
    else if k.column < minColumn then
      if besideKey && k.isDash && k.column + 1 = minColumn then do
        let (items, k) ← blockItems k.column true fuel k
        some (.list items, k)
      else some (empty, k)
    else if k.isDash then
      if keys then do
        let (items, k) ← blockItems k.column false fuel k
        some (.list items, k)
      else none
    else do
      let (x, colon, after) ← keyed minColumn (fuel + 1) k
      match colon with
      | none => some (x, after)
      | some colon =>
        if keys then do
          let (pairs, k) ← blockPairs k.column fuel x colon
          some (.mapping pairs, k)
        else none

/-- The items of a list whose dashes stand in the given column, from a
dash on. The list ends before whatever begins further left, and, if it
stands beside its key, before the next key. -/
def blockItems (column : Nat) (besideKey : Bool) : Nat → Cursor → Option (List Node × Cursor)
  | 0, _ => none
  | fuel + 1, k => do
    let (x, k) ← block (column + 1) true false fuel ((k.advance 1).settle false)
    let k := k.settle true
    if k.isOver || k.column < column then some ([x], k)
    else if column < k.column then none
    else if k.isDash then do
      let (xs, k) ← blockItems column besideKey fuel k
      some (x :: xs, k)
    else if besideKey then some ([x], k)
    else none

/-- The pairs of a mapping whose keys begin in the given column, from the
colon of the first key on. -/
def blockPairs (column : Nat) : Nat → Node → Cursor → Option (List (Node × Node) × Cursor)
  | 0, _, _ => none
  | fuel + 1, key, colon => do
    let start := (colon.advance 1).settle true
    let (v, k) ← block (column + 1) (colon.line < start.line) true fuel start
    let k := k.settle true
    if k.isOver || k.column < column then some ([(key, v)], k)
    else if column < k.column || k.isDash then none
    else do
      let (next, found, _) ← keyed (column + 1) (fuel + 1) k
      match found with
      | none => none
      | some found => do
        let (pairs, k) ← blockPairs column fuel next found
        some ((key, v) :: pairs, k)

end

/-! ## Documents -/

/-- The characters that a document may hold. -/
def isAllowed (c : Char) : Bool :=
  let n := c.toNat
  n = 0x09 || n = 0x0A || n = 0x0D || (0x20 ≤ n && n ≤ 0x7E) || n = 0x85 ||
    (0xA0 ≤ n && n ≤ 0xD7FF) || (0xE000 ≤ n && n ≤ 0xFFFD) || 0x10000 ≤ n

/-- Every line end as a line feed. -/
def unifyLines : List Char → List Char
  | [] => []
  | '\r' :: '\n' :: rest => '\n' :: unifyLines rest
  | c :: rest => (if c = '\r' || c = '\u0085' then '\n' else c) :: unifyLines rest

/-- Goes over marks that end a document. The first argument bounds their
number. -/
def skipEnds : Nat → Cursor → Cursor
  | 0, k => k
  | fuel + 1, k =>
    if Cursor.isMark ['.', '.', '.'] k.column k.rest then
      skipEnds fuel ((k.advance 3).settle false)
    else k

/-- Reads a document. -/
def ofChars? (cs : List Char) : Option Node :=
  if !cs.all isAllowed then none
  else
    let cs := unifyLines (if cs.head? = some '\uFEFF' then cs.drop 1 else cs)
    let fuel := 2 * cs.length + 4
    let start := skipEnds fuel ((Cursor.mk cs 0 0).settle false)
    if start.rest.isEmpty then some empty
    else if start.column = 0 && start.rest.head? = some '%' then none
    else do
      let (x, k) ←
        if Cursor.isMark ['-', '-', '-'] start.column start.rest then
          let first := (start.advance 3).settle true
          block 0 (start.line < first.line) false fuel first
        else block 0 true false fuel start
      let k := skipEnds fuel (k.settle true)
      if k.rest.isEmpty then some x else none

/-- Reads a document from bytes. -/
def ofBytes? (bytes : List UInt8) : Option Node := do
  let text ← Utf8.decode? bytes
  ofChars? text.toList

end Node

end Yaml

end TrafficGate
