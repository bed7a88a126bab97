/-!
# UTF-8, piece by piece

A sequence of bytes is read as characters, with the bytes that form no
character kept apart: `pieces` cuts it into `Piece`s. Both uses of a
response body are readings of the pieces. Its text for a person replaces
every broken piece by one replacement character (`lossy`); its text for a
reader of documents refuses broken pieces where characters are meant.

A broken piece is a longest run of bytes that starts a character and does
not finish it, or one byte that starts none.
-/

namespace TrafficGate

namespace Utf8

/-- A character, or bytes that form none. -/
inductive Piece where
  | char (c : Char)
  | broken (bytes : List UInt8)
  deriving DecidableEq, Repr, Inhabited

namespace Piece

/-- The bytes a piece was read from. -/
def bytes : Piece → List UInt8
  | char c => String.utf8EncodeChar c
  | broken bs => bs

/-- The character itself, and the replacement character for a broken piece. -/
def shown : Piece → Char
  | char c => c
  | broken _ => '\uFFFD'

/-- How many bytes a piece takes. -/
def size (p : Piece) : Nat := p.bytes.length

/-- The character, if the piece is one. -/
def char? : Piece → Option Char
  | char c => some c
  | broken _ => none

end Piece

/-- A byte that continues a character. -/
def isContinuation (b : UInt8) : Bool := 0x80 ≤ b && b ≤ 0xBF

/-- The least and the greatest second byte after a first byte of three or
four bytes: overlong forms, surrogates and numbers above the last code
point are cut off here. -/
def secondRange (a : UInt8) : UInt8 × UInt8 :=
  if a = 0xE0 then (0xA0, 0xBF)
  else if a = 0xED then (0x80, 0x9F)
  else if a = 0xF0 then (0x90, 0xBF)
  else if a = 0xF4 then (0x80, 0x8F)
  else (0x80, 0xBF)

/-- A second byte that the first byte `a` allows. -/
def isSecond (a b : UInt8) : Bool := (secondRange a).1 ≤ b && b ≤ (secondRange a).2

/-- The bits a continuation byte carries. -/
def low (b : UInt8) : Nat := b.toNat % 64

/-- The pieces of a byte sequence, in order. -/
def pieces : List UInt8 → List Piece
  | [] => []
  | a :: rest =>
    if a < 0x80 then .char (Char.ofNat a.toNat) :: pieces rest
    else if 0xC2 ≤ a && a ≤ 0xDF then
      match rest with
      | b :: rest =>
        if isContinuation b then
          .char (Char.ofNat (a.toNat % 32 * 64 + low b)) :: pieces rest
        else .broken [a] :: pieces (b :: rest)
      | [] => [.broken [a]]
    else if 0xE0 ≤ a && a ≤ 0xEF then
      match rest with
      | b :: rest =>
        if isSecond a b then
          match rest with
          | c :: rest =>
            if isContinuation c then
              .char (Char.ofNat (a.toNat % 16 * 4096 + low b * 64 + low c)) :: pieces rest
            else .broken [a, b] :: pieces (c :: rest)
          | [] => [.broken [a, b]]
        else .broken [a] :: pieces (b :: rest)
      | [] => [.broken [a]]
    else if 0xF0 ≤ a && a ≤ 0xF4 then
      match rest with
      | b :: rest =>
        if isSecond a b then
          match rest with
          | c :: rest =>
            if isContinuation c then
              match rest with
              | d :: rest =>
                if isContinuation d then
                  .char (Char.ofNat
                    (a.toNat % 8 * 262144 + low b * 4096 + low c * 64 + low d)) :: pieces rest
                else .broken [a, b, c] :: pieces (d :: rest)
              | [] => [.broken [a, b, c]]
            else .broken [a, b] :: pieces (c :: rest)
          | [] => [.broken [a, b]]
        else .broken [a] :: pieces (b :: rest)
      | [] => [.broken [a]]
    else .broken [a] :: pieces rest

/-- The bytes of a text. -/
def encode (s : String) : List UInt8 := s.toList.flatMap String.utf8EncodeChar

/-- The text shown for a byte sequence: each broken piece becomes one
replacement character. -/
def lossy (bytes : List UInt8) : String := String.ofList ((pieces bytes).map Piece.shown)

/-- The text that a byte sequence holds, if no piece of it is broken. -/
def decode? (bytes : List UInt8) : Option String :=
  ((pieces bytes).mapM Piece.char?).map String.ofList

/-- The pieces of a text: its characters. -/
def ofString (s : String) : List Piece := s.toList.map .char

end Utf8

end TrafficGate
