import TrafficGate.Text.Utf8
/-!
# Texts are read back from their bytes

The bytes of a character are cut into that one character, whatever follows
them (`pieces_utf8EncodeChar`). So the pieces of the bytes of a text are its
characters, and none of them is broken (`pieces_encode`); and texts with the
same bytes are the same.

A character takes one to four bytes. For each number there is one lemma
about `pieces`, and then what is left is arithmetic on the code point.
-/

namespace TrafficGate

namespace Utf8

variable {a b c d : UInt8} {rest : List UInt8}

/-! ## Bytes that form a character -/

/-- Whether a byte lies between two others. -/
theorem between_iff {x y : UInt8} :
    (x ≤ a && a ≤ y) = true ↔ x.toNat ≤ a.toNat ∧ a.toNat ≤ y.toNat := by
  rw [Bool.and_eq_true, decide_eq_true_eq, decide_eq_true_eq, UInt8.le_iff_toNat_le,
    UInt8.le_iff_toNat_le]

theorem isContinuation_iff : isContinuation b = true ↔ 0x80 ≤ b.toNat ∧ b.toNat ≤ 0xBF :=
  between_iff

/-- Four first bytes ask for more than a continuation behind them. -/
theorem isSecond_of_isContinuation (hb : isContinuation b = true)
    (hE0 : a.toNat = 0xE0 → 0xA0 ≤ b.toNat) (hED : a.toNat = 0xED → b.toNat ≤ 0x9F)
    (hF0 : a.toNat = 0xF0 → 0x90 ≤ b.toNat) (hF4 : a.toNat = 0xF4 → b.toNat ≤ 0x8F) :
    isSecond a b = true := by
  obtain ⟨hlow, hhigh⟩ := isContinuation_iff.1 hb
  unfold isSecond secondRange
  rw [between_iff]
  split
  case isTrue h => exact ⟨hE0 (congrArg UInt8.toNat h), hhigh⟩
  split
  case isTrue h => exact ⟨hlow, hED (congrArg UInt8.toNat h)⟩
  split
  case isTrue h => exact ⟨hF0 (congrArg UInt8.toNat h), hhigh⟩
  split
  case isTrue h => exact ⟨hlow, hF4 (congrArg UInt8.toNat h)⟩
  exact ⟨hlow, hhigh⟩

/-- A first byte is not what it would be in front of fewer bytes. -/
theorem not_between {x y : UInt8} (h : y.toNat < a.toNat) : (x ≤ a && a ≤ y) = false := by
  rw [← Bool.not_eq_true, between_iff]
  omega

theorem not_lt_of_le_toNat {x : UInt8} (h : x.toNat ≤ a.toNat) : ¬ a < x := by
  rw [UInt8.lt_iff_toNat_lt]
  omega

/-- A byte below 128 is a character of its own. -/
theorem pieces_one (ha : a.toNat < 0x80) :
    pieces (a :: rest) = .char (Char.ofNat a.toNat) :: pieces rest := by
  have hone : a < 0x80 := UInt8.lt_iff_toNat_lt.2 ha
  rw [pieces.eq_def]
  simp only [hone, if_true]

/-- A first byte of two and one that continues it form a character. -/
theorem pieces_two (ha : 0xC2 ≤ a.toNat ∧ a.toNat ≤ 0xDF) (hb : isContinuation b = true) :
    pieces (a :: b :: rest) =
      .char (Char.ofNat (a.toNat % 32 * 64 + low b)) :: pieces rest := by
  have hone : ¬ a < 0x80 := not_lt_of_le_toNat (show 0x80 ≤ a.toNat by omega)
  have htwo : (0xC2 ≤ a && a ≤ 0xDF) = true := between_iff.2 ha
  rw [pieces.eq_def]
  simp only [hone, htwo, hb, if_true, if_false]

/-- A first byte of three forms one with a second that it allows and one more. -/
theorem pieces_three (ha : 0xE0 ≤ a.toNat ∧ a.toNat ≤ 0xEF) (hb : isSecond a b = true)
    (hc : isContinuation c = true) :
    pieces (a :: b :: c :: rest) =
      .char (Char.ofNat (a.toNat % 16 * 4096 + low b * 64 + low c)) :: pieces rest := by
  have hone : ¬ a < 0x80 := not_lt_of_le_toNat (show 0x80 ≤ a.toNat by omega)
  have htwo : (0xC2 ≤ a && a ≤ 0xDF) = false := not_between (show 0xDF < a.toNat by omega)
  have hthree : (0xE0 ≤ a && a ≤ 0xEF) = true := between_iff.2 ha
  rw [pieces.eq_def]
  simp only [hone, htwo, hthree, hb, hc, if_true, if_false, Bool.false_eq_true]

/-- A first byte of four forms one with a second that it allows and two more. -/
theorem pieces_four (ha : 0xF0 ≤ a.toNat ∧ a.toNat ≤ 0xF4) (hb : isSecond a b = true)
    (hc : isContinuation c = true) (hd : isContinuation d = true) :
    pieces (a :: b :: c :: d :: rest) =
      .char (Char.ofNat (a.toNat % 8 * 262144 + low b * 4096 + low c * 64 + low d)) ::
        pieces rest := by
  have hone : ¬ a < 0x80 := not_lt_of_le_toNat (show 0x80 ≤ a.toNat by omega)
  have htwo : (0xC2 ≤ a && a ≤ 0xDF) = false := not_between (show 0xDF < a.toNat by omega)
  have hthree : (0xE0 ≤ a && a ≤ 0xEF) = false := not_between (show 0xEF < a.toNat by omega)
  have hfour : (0xF0 ≤ a && a ≤ 0xF4) = true := between_iff.2 ha
  rw [pieces.eq_def]
  simp only [hone, htwo, hthree, hfour, hb, hc, hd, if_true, if_false, Bool.false_eq_true]

/-! ## The bytes of a character -/

theorem toNat_ofNat {n : Nat} (h : n < 256) : (UInt8.ofNat n).toNat = n :=
  UInt8.toNat_ofNat_of_lt' h

/-- A continuation carries six bits. -/
theorem toNat_continuation (n : Nat) : (UInt8.ofNat (n % 64 + 128)).toNat = n % 64 + 128 :=
  toNat_ofNat (by omega)

/-- The last six bits of a number, marked as such, continue a character. -/
theorem isContinuation_ofNat (n : Nat) : isContinuation (UInt8.ofNat (n % 64 + 128)) = true := by
  rw [isContinuation_iff, toNat_continuation]
  omega

theorem low_ofNat (n : Nat) : low (UInt8.ofNat (n % 64 + 128)) = n % 64 := by
  rw [low, toNat_continuation]
  omega

/-- Of three bytes, no overlong form and no surrogate. -/
theorem isSecond_three {n : Nat} (h : 0x7FF < n ∧ n < 0xD800 ∨ 0xDFFF < n ∧ n ≤ 0xFFFF) :
    isSecond (UInt8.ofNat (n / 4096 % 16 + 224)) (UInt8.ofNat (n / 64 % 64 + 128)) = true := by
  refine isSecond_of_isContinuation (isContinuation_ofNat _) ?_ ?_ ?_ ?_
  all_goals
    rw [toNat_ofNat (show n / 4096 % 16 + 224 < 256 by omega), toNat_continuation]
    omega

/-- Of four bytes, no overlong form and nothing beyond the last code point. -/
theorem isSecond_four {n : Nat} (h : 0xFFFF < n ∧ n < 0x110000) :
    isSecond (UInt8.ofNat (n / 262144 % 8 + 240)) (UInt8.ofNat (n / 4096 % 64 + 128)) = true := by
  refine isSecond_of_isContinuation (isContinuation_ofNat _) ?_ ?_ ?_ ?_
  all_goals
    rw [toNat_ofNat (show n / 262144 % 8 + 240 < 256 by omega), toNat_continuation]
    omega

/-- **A character is read back from its bytes**, whatever follows. -/
theorem pieces_utf8EncodeChar (x : Char) (rest : List UInt8) :
    pieces (String.utf8EncodeChar x ++ rest) = .char x :: pieces rest := by
  have hvalid : x.toNat < 0xD800 ∨ 0xDFFF < x.toNat ∧ x.toNat < 0x110000 := x.valid
  have hback : Char.ofNat x.toNat = x := Char.ofNat_toNat x
  generalize hn : x.toNat = n at hvalid hback
  have hval : x.val.toNat = n := hn
  unfold String.utf8EncodeChar
  simp only [hval]
  split
  case isTrue h =>
    have ha : (UInt8.ofNat n).toNat = n := toNat_ofNat (by omega)
    refine (pieces_one (by omega)).trans ?_
    rw [ha, hback]
    rfl
  split
  case isTrue h =>
    have ha : (UInt8.ofNat (n / 64 % 32 + 192)).toNat = n / 64 % 32 + 192 := toNat_ofNat (by omega)
    refine (pieces_two (by omega) (isContinuation_ofNat n)).trans ?_
    have hcode : (n / 64 % 32 + 192) % 32 * 64 + n % 64 = n := by omega
    rw [ha, low_ofNat, hcode, hback]
    rfl
  split
  case isTrue h =>
    have ha : (UInt8.ofNat (n / 4096 % 16 + 224)).toNat = n / 4096 % 16 + 224 :=
      toNat_ofNat (by omega)
    refine (pieces_three (by omega) (isSecond_three (by omega)) (isContinuation_ofNat n)).trans ?_
    have hcode : (n / 4096 % 16 + 224) % 16 * 4096 + n / 64 % 64 * 64 + n % 64 = n := by omega
    rw [ha, low_ofNat, low_ofNat, hcode, hback]
    rfl
  · have ha : (UInt8.ofNat (n / 262144 % 8 + 240)).toNat = n / 262144 % 8 + 240 :=
      toNat_ofNat (by omega)
    refine (pieces_four (by omega) (isSecond_four (by omega)) (isContinuation_ofNat _)
      (isContinuation_ofNat n)).trans ?_
    have hcode : (n / 262144 % 8 + 240) % 8 * 262144 + n / 4096 % 64 * 4096 +
        n / 64 % 64 * 64 + n % 64 = n := by omega
    rw [ha, low_ofNat, low_ofNat, low_ofNat, hcode, hback]
    rfl

/-! ## The bytes of a text -/

/-- **The pieces of the bytes of a text are its characters.** -/
theorem pieces_encode (s : String) : pieces (encode s) = ofString s := by
  unfold encode ofString
  induction s.toList with
  | nil => rfl
  | cons x xs ih => rw [List.flatMap_cons, pieces_utf8EncodeChar, List.map_cons, ih]

/-- **No two texts have the same bytes.** -/
theorem encode_injective {s t : String} (h : encode s = encode t) : s = t := by
  have hpieces : ofString s = ofString t := by
    rw [← pieces_encode, h, pieces_encode]
  exact String.toList_injective ((List.map_inj_right fun _ _ => Piece.char.inj).1 hpieces)

end Utf8

end TrafficGate
