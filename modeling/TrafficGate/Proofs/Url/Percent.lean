import TrafficGate.Proofs.Text.Utf8
import TrafficGate.Url.Percent
/-!
# Percent encoding is undone

What is encoded reads back as the bytes it stands for (`decode_encode`),
as long as the percent sign itself is among the encoded characters. And a
character that the set encodes never stands in an encoded text
(`set_eq_false_of_mem_encode`), unless encoding puts it there.
-/

namespace TrafficGate

namespace Percent

variable {set : EncodeSet} {c : Char} {cs : List Char} {rest : List Char}

/-! ## Digits -/

theorem hexValue_hexCapital {n : Nat} (hn : n < 16) :
    Text.hexValue? (Text.hexCapital n) = some n := by
  decide +revert

/-- Encoding writes percent signs, digits and capital letters. -/
def isWritten (c : Char) : Bool := c = '%' || c.isDigit || c.isUpper

theorem isWritten_hexCapital {n : Nat} (hn : n < 16) : isWritten (Text.hexCapital n) = true := by
  decide +revert

theorem isWritten_of_mem_ofByte {b : UInt8} (h : c ∈ ofByte b) : isWritten c = true := by
  have hb : b.toNat < 256 := b.toNat_lt
  simp only [ofByte, List.mem_cons, List.not_mem_nil, or_false] at h
  rcases h with rfl | rfl | rfl
  · rfl
  · exact isWritten_hexCapital (by omega)
  · exact isWritten_hexCapital (by omega)

/-! ## Reading back -/

/-- An encoded byte is read back, whatever follows. -/
theorem decode_ofByte (b : UInt8) (rest : List Char) :
    decode (ofByte b ++ rest) = b :: decode rest := by
  have hb : b.toNat < 256 := b.toNat_lt
  have hhigh := hexValue_hexCapital (show b.toNat / 16 < 16 by omega)
  have hlow := hexValue_hexCapital (show b.toNat % 16 < 16 by omega)
  have hvalue : b.toNat / 16 * 16 + b.toNat % 16 = b.toNat := by omega
  simp only [ofByte, List.cons_append, List.nil_append]
  rw [decode]
  simp only [hhigh, hlow, hvalue, UInt8.ofNat_toNat]

theorem decode_flatMap_ofByte (bytes : List UInt8) (rest : List Char) :
    decode (bytes.flatMap ofByte ++ rest) = bytes ++ decode rest := by
  induction bytes with
  | nil => rfl
  | cons b bytes ih =>
    rw [List.flatMap_cons, List.append_assoc, decode_ofByte, ih, List.cons_append]

/-- A character that is no percent sign stands for itself. -/
theorem decode_cons_of_ne (h : c ≠ '%') (rest : List Char) :
    decode (c :: rest) = String.utf8EncodeChar c ++ decode rest := by
  rw [decode]
  rintro _ _ _ rfl
  exact absurd rfl h

/-- Either way a character is written, it is read back. -/
theorem decode_encodeChar (hset : set '%' = true) (c : Char) (rest : List Char) :
    decode (encodeChar set c ++ rest) = String.utf8EncodeChar c ++ decode rest := by
  unfold encodeChar
  split
  · exact decode_flatMap_ofByte _ rest
  · rename_i hplain
    have hc : c ≠ '%' := by
      rintro rfl
      simp [hset] at hplain
    exact decode_cons_of_ne hc rest

/-- **An encoded text stands for the bytes of the text.** -/
theorem decode_encode (hset : set '%' = true) (cs : List Char) :
    decode (encode set cs) = cs.flatMap String.utf8EncodeChar := by
  induction cs with
  | nil => rfl
  | cons c cs ih =>
    change decode (encodeChar set c ++ encode set cs) = _
    rw [decode_encodeChar hset, ih, List.flatMap_cons]

/-! ## What is never written -/

/-- **What the set encodes is gone**, apart from what encoding writes. -/
theorem set_eq_false_of_mem_encode (hc : isWritten c = false) (h : c ∈ encode set cs) :
    set c = false := by
  obtain ⟨d, -, hd⟩ := List.mem_flatMap.1 h
  unfold encodeChar at hd
  split at hd
  · obtain ⟨b, -, hb⟩ := List.mem_flatMap.1 hd
    rw [isWritten_of_mem_ofByte hb] at hc
    cases hc
  · rename_i hplain
    obtain rfl := List.mem_singleton.1 hd
    simp only [Bool.or_eq_true, not_or, Bool.not_eq_true] at hplain
    exact hplain.2

end Percent

end TrafficGate
