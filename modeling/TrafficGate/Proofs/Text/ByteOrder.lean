import TrafficGate.Proofs.Text.Utf8
import Mathlib.Data.String.Basic
import Mathlib.Tactic.SplitIfs
/-!
# The order of texts is that of their bytes

Texts are compared character by character. Whoever compares their bytes
instead comes to the same order (`encode_lt_encode_iff`): of two characters
the lesser has the lesser bytes, whatever follows either of them
(`utf8EncodeChar_append_lt`). So one order will do, for readers that know of
characters and for those that know of bytes only.
-/

namespace TrafficGate

namespace Utf8

variable {x y : Char} {xs ys : List UInt8}

/-- The first byte decides, unless it is the same. -/
theorem cons_ofNat_lt_iff {m n : Nat} (hm : m < 256) (hn : n < 256) :
    UInt8.ofNat m :: xs < UInt8.ofNat n :: ys ↔ m < n ∨ m = n ∧ xs < ys := by
  rw [List.cons_lt_cons_iff, UInt8.lt_iff_toNat_lt, ← UInt8.toNat_inj, toNat_ofNat hm,
    toNat_ofNat hn]

/-- **The lesser character has the lesser bytes**, whatever follows. -/
theorem utf8EncodeChar_append_lt (h : x < y) (xs ys : List UInt8) :
    String.utf8EncodeChar x ++ xs < String.utf8EncodeChar y ++ ys := by
  have hlt : x.val.toNat < y.val.toNat := h
  have hvalid : y.val.toNat < 0xD800 ∨ 0xDFFF < y.val.toNat ∧ y.val.toNat < 0x110000 := y.valid
  unfold String.utf8EncodeChar
  generalize x.val.toNat = m at hlt
  generalize y.val.toNat = n at hlt hvalid
  -- the three bits of the first of four bytes are all that is left of the code point
  have hm : m / 262144 % 8 = m / 262144 := by omega
  have hn : n / 262144 % 8 = n / 262144 := by omega
  dsimp only
  -- more bytes begin with a greater one, and of as many each carries the next digit
  split_ifs
  all_goals
    simp (disch := omega) only [List.cons_append, List.nil_append, cons_ofNat_lt_iff]
    omega

theorem flatMap_utf8EncodeChar_lt {s t : List Char} (h : s < t) :
    s.flatMap String.utf8EncodeChar < t.flatMap String.utf8EncodeChar := by
  induction h with
  | @nil y t =>
    rw [List.flatMap_nil, List.flatMap_cons]
    obtain ⟨b, bs, hb⟩ := List.exists_cons_of_ne_nil (@String.utf8EncodeChar_ne_nil y)
    rw [hb]
    exact List.nil_lt_cons _ _
  | rel hxy => exact utf8EncodeChar_append_lt hxy _ _
  | cons _ ih => exact List.append_left_lt ih

/-- **Texts are in the order of their bytes.** -/
theorem encode_lt_encode_iff {s t : String} : encode s < encode t ↔ s < t := by
  rw [String.lt_iff_toList_lt]
  refine ⟨fun h => ?_, flatMap_utf8EncodeChar_lt⟩
  rcases lt_trichotomy s.toList t.toList with hlt | heq | hgt
  · exact hlt
  · exact absurd h (by rw [encode, encode, heq]; exact List.lt_irrefl _)
  · exact absurd h (List.lt_asymm (flatMap_utf8EncodeChar_lt hgt))

end Utf8

end TrafficGate
