import TrafficGate.Text.Split
import TrafficGate.Text.Utf8
import TrafficGate.Url.Percent
import TrafficGate.Url.Punycode
/-!
# Hosts

A host is a name or an address. Names are written in small letters, and
with their labels in ASCII. A name whose last label is a number is read
as an address of four bytes or not at all; an address of sixteen bytes
stands in brackets and is written with its longest run of zeros left out.
-/

namespace TrafficGate

/-- A host of a URL. -/
inductive Host where
  | name (text : String)
  | v4 (address : Nat)
  | v6 (groups : List Nat)
  deriving DecidableEq, Repr, Inhabited

namespace Host

/-! ## Addresses of four bytes -/

/-- A number to a base, if every digit is one of the base. -/
def ofDigits? (base : Nat) (cs : List Char) : Option Nat :=
  cs.foldlM (fun n c => do
    let d ← Text.hexValue? c
    if d < base then some (n * base + d) else none) 0

/-- A part of an address: to base ten, or to base eight behind a zero, or
to base sixteen behind `0x`. -/
def part? : List Char → Option Nat
  | [] => none
  | '0' :: 'x' :: rest => ofDigits? 16 rest
  | '0' :: 'X' :: rest => ofDigits? 16 rest
  | '0' :: d :: rest => ofDigits? 8 (d :: rest)
  | cs => ofDigits? 10 cs

/-- The labels of a name, without an empty one at the end. -/
def labels (cs : List Char) : List (List Char) :=
  let ls := Text.split (· = '.') cs
  if 1 < ls.length && ls.getLast? = some [] then ls.dropLast else ls

/-- Whether a name can only be an address. -/
def endsInNumber (cs : List Char) : Bool :=
  match (labels cs).getLast? with
  | none => false
  | some last => (!last.isEmpty && last.all (·.isDigit)) || (part? last).isSome

/-- The address of up to four parts, the last of which fills what the
others leave. -/
def v4? (cs : List Char) : Option Host := do
  let parts ← (labels cs).mapM part?
  let last ← parts.getLast?
  let front := parts.dropLast
  if 3 < front.length || front.any (255 < ·) || Nat.pow 256 (4 - front.length) ≤ last then none
  else some (v4 (front.zipIdx.foldl (fun n p => n + p.1 * Nat.pow 256 (3 - p.2)) last))

/-- The four numbers of an address. -/
def v4Text (n : Nat) : String :=
  ".".intercalate ([n / 16777216, n / 65536 % 256, n / 256 % 256, n % 256].map toString)

/-! ## Addresses of sixteen bytes -/

/-- One group of an address. -/
def group? (cs : List Char) : Option Nat :=
  if cs.isEmpty || 4 < cs.length then none else ofDigits? 16 cs

/-- A byte of a tail in the old form, without leading zeros. -/
def byte? (cs : List Char) : Option Nat :=
  match cs with
  | ['0'] => some 0
  | '0' :: _ => none
  | [] => none
  | cs => (ofDigits? 10 cs).filter (· ≤ 255)

/-- Two groups in the form of four bytes. -/
def bytesTail? (cs : List Char) : Option (List Nat) :=
  match (Text.split (· = '.') cs).mapM byte? with
  | some [a, b, c, d] => some [a * 256 + b, c * 256 + d]
  | _ => none

/-- Groups between colons; the last may be in the form of four bytes. -/
def groups? (tail : Bool) (cs : List Char) : Option (List Nat) :=
  if cs.isEmpty then some []
  else
    let parts := Text.split (· = ':') cs
    match parts.getLast? with
    | none => some []
    | some last =>
      if tail && last.contains '.' then do
        let front ← parts.dropLast.mapM group?
        let rest ← bytesTail? last
        some (front ++ rest)
      else parts.mapM group?

/-- What stands before and behind the first two colons in a row. -/
def cutColons : List Char → List Char × Option (List Char)
  | ':' :: ':' :: rest => ([], some rest)
  | c :: rest =>
    let (before, behind) := cutColons rest
    (c :: before, behind)
  | [] => ([], none)

/-- An address between brackets. -/
def v6? (cs : List Char) : Option Host :=
  match cutColons cs with
  | (front, none) => do
    let gs ← groups? true front
    if gs.length = 8 then some (v6 gs) else none
  | (front, some back) => do
    let before ← groups? false front
    let behind ← groups? true back
    if 7 < before.length + behind.length then none
    else some (v6 (before ++ List.replicate (8 - before.length - behind.length) 0 ++ behind))

/-- How many zeros stand in front. -/
def zeroRun : List Nat → Nat
  | 0 :: rest => zeroRun rest + 1
  | _ => 0

/-- The longest run of zeros: where it begins and how long it is. -/
def longestRun : Nat → List Nat → Nat × Nat
  | _, [] => (0, 0)
  | index, g :: rest =>
    let here := zeroRun (g :: rest)
    let later := longestRun (index + 1) rest
    if later.2 ≤ here then (index, here) else later

def v6Text (gs : List Nat) : String :=
  let join (gs : List Nat) := ":".intercalate (gs.map fun g => String.ofList (Nat.toDigits 16 g))
  let (start, size) := longestRun 0 gs
  if size < 2 then "[" ++ join gs ++ "]"
  else "[" ++ join (gs.take start) ++ "::" ++ join (gs.drop (start + size)) ++ "]"

/-! ## Names -/

/-- The small letter of a capital one, in the alphabets that host names
are mostly written in; wide forms become plain ones. -/
def smallLetter (c : Char) : Char :=
  let n := c.toNat
  if 65 ≤ n ∧ n ≤ 90 then Char.ofNat (n + 32)
  else if 0xC0 ≤ n ∧ n ≤ 0xDE ∧ n ≠ 0xD7 then Char.ofNat (n + 32)
  else if 0x391 ≤ n ∧ n ≤ 0x3A9 then Char.ofNat (n + 32)
  else if 0x410 ≤ n ∧ n ≤ 0x42F then Char.ofNat (n + 32)
  else if 0x400 ≤ n ∧ n ≤ 0x40F then Char.ofNat (n + 80)
  else if 0xFF21 ≤ n ∧ n ≤ 0xFF3A then Char.ofNat (n - 0xFF21 + 97)
  else if 0xFF01 ≤ n ∧ n ≤ 0xFF5E then Char.ofNat (n - 0xFEE0)
  else if n = 0x3002 ∨ n = 0xFF61 then '.'
  else c

/-- The ASCII form of a name. -/
def asciiName (cs : List Char) : List Char :=
  ['.'].intercalate ((Text.split (· = '.') (cs.map smallLetter)).map Punycode.label)

/-- The characters that no host holds. -/
def isForbidden (c : Char) : Bool :=
  ['\x00', '\t', '\n', '\r', ' ', '#', '/', ':', '<', '>', '?', '@', '[', '\\', ']', '^',
    '|'].contains c

/-- Reads the host of a URL of one of the special schemes. -/
def ofChars? (cs : List Char) : Option Host :=
  match cs with
  | '[' :: rest => if rest.getLast? = some ']' then v6? rest.dropLast else none
  | cs => do
    let decoded ← Utf8.decode? (Percent.decode cs)
    let ascii := asciiName decoded.toList
    if ascii.isEmpty || ascii.any fun c => isForbidden c || Percent.controls c || c = '%' then none
    else if endsInNumber ascii then v4? ascii
    else some (name (String.ofList ascii))

/-- Reads the host of a URL of any other scheme. -/
def ofForeignChars? (cs : List Char) : Option Host :=
  match cs with
  | '[' :: rest => if rest.getLast? = some ']' then v6? rest.dropLast else none
  | cs =>
    if cs.any isForbidden then none
    else some (name (String.ofList (Percent.encode Percent.controls cs)))

def text : Host → String
  | name s => s
  | v4 n => v4Text n
  | v6 gs => v6Text gs

end Host

end TrafficGate
