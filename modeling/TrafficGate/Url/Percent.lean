import TrafficGate.Text.Hex
/-!
# Percent encoding

A character that may not stand in some part of a URL is written as its
bytes, each as a percent sign and two digits. The parts differ in the
ASCII characters that they encode; characters beyond ASCII are encoded
everywhere.
-/

namespace TrafficGate

namespace Percent

/-- The ASCII characters that a part of a URL encodes. -/
abbrev EncodeSet := Char → Bool

def controls : EncodeSet := fun c => c.toNat < 0x20 || c.toNat = 0x7F

def fragment : EncodeSet := fun c => controls c || [' ', '"', '<', '>', '\x60'].contains c

def path : EncodeSet := fun c => fragment c || ['#', '?', '\x7b', '\x7d'].contains c

/-- A whole path segment, which keeps no separator and no percent sign. -/
def segment : EncodeSet := fun c => path c || ['/', '%'].contains c

/-- A segment where a backslash separates segments too. -/
def specialSegment : EncodeSet := fun c => segment c || c = '\\'

def userinfo : EncodeSet := fun c =>
  path c || ['/', ':', ';', '=', '@', '[', '\\', ']', '^', '|'].contains c

def query : EncodeSet := fun c => controls c || [' ', '"', '#', '<', '>'].contains c

def specialQuery : EncodeSet := fun c => query c || c = '\''

/-- A byte as a percent sign and two digits. -/
def ofByte (b : UInt8) : List Char :=
  ['%', Text.hexCapital (b.toNat / 16), Text.hexCapital (b.toNat % 16)]

def encodeChar (set : EncodeSet) (c : Char) : List Char :=
  if 0x80 ≤ c.toNat || set c then (String.utf8EncodeChar c).flatMap ofByte else [c]

def encode (set : EncodeSet) (cs : List Char) : List Char := cs.flatMap (encodeChar set)

/-- The bytes that an encoded text stands for. A percent sign without two
digits stands for itself. -/
def decode : List Char → List UInt8
  | [] => []
  | '%' :: a :: b :: rest =>
    match Text.hexValue? a, Text.hexValue? b with
    | some x, some y => UInt8.ofNat (x * 16 + y) :: decode rest
    | _, _ => 0x25 :: decode (a :: b :: rest)
  | c :: rest => String.utf8EncodeChar c ++ decode rest

end Percent

end TrafficGate
