import TrafficGate.Proofs.Json.Spelling
/-!
# Texts are read back from their quotes

However a text is spelled, its characters are read back one by one
(`textBody_spells`), up to the quote that closes it; what follows is left
alone (`quotedText_spells`). Where nobody looks at the text, the same quote
is found (`skipTextBody_spells`).
-/

namespace TrafficGate

namespace Json

open Utf8 (Piece)

/-- Characters as pieces of a document. -/
abbrev chars (cs : List Char) : List Piece := cs.map .char

/-! ## One character -/

section Character

variable {c e : Char} {n : Nat} {ds cs : List Char} {ps left : List Piece} {broken : Bool}

/-- Four digits are read as the unit that they spell. -/
theorem hexUnit_spells (h : SpellsUnit n ds) (ps : List Piece) :
    hexUnit (chars ds ++ ps) = .ok n := by
  obtain ⟨hp, hq, hr, hs⟩ := h
  simp [hexUnit, Utf8.Piece.char?, hp, hq, hr, hs]

/-- The code point of a character is no surrogate. -/
theorem not_surrogate (c : Char) : isLeading c.toNat = false ∧ isTrailing c.toNat = false := by
  have hvalid : c.toNat < 0xD800 ∨ 0xDFFF < c.toNat ∧ c.toNat < 0x110000 := c.valid
  simp only [isLeading, isTrailing, Bool.and_eq_false_iff, decide_eq_false_iff_not]
  omega

/-! ### Where the text counts -/

/-- A character that needs no escape stands for itself. -/
theorem textBody_plain (hquote : c ≠ '"') (hslash : c ≠ '\\') (hcontrol : ¬ c.toNat < 0x20)
    (h : textBody 0 ps = .ok (cs, broken, left)) :
    textBody 0 (.char c :: ps) = .ok (c :: cs, broken, left) := by
  rw [textBody, if_neg hquote, if_neg hslash, if_neg hcontrol, h]
  rfl

/-- An escape is passed over by the number of pieces it takes. -/
theorem textBody_escape {taken : Nat} (hescape : escape ps = .ok (c, taken))
    (h : textBody taken ps = .ok (cs, broken, left)) :
    textBody 0 (.char '\\' :: ps) = .ok (c :: cs, broken, left) := by
  rw [textBody, if_neg (by decide), if_pos rfl, hescape]
  change (textBody taken ps >>= _) = _
  rw [h]
  rfl

/-- A short escape stands for one character. -/
theorem escape_short (he : shortEscape? e = some c) (ps : List Piece) :
    escape (.char e :: ps) = .ok (c, 1) := by
  simp only [escape, he]

/-- An escaped unit stands for the character of that number. -/
theorem escape_unit (h : SpellsUnit c.toNat ds) (ps : List Piece) :
    escape (.char 'u' :: (chars ds ++ ps)) = .ok (c, 5) := by
  have hshort : shortEscape? 'u' = none := rfl
  obtain ⟨hleading, htrailing⟩ := not_surrogate c
  simp only [escape, hshort, if_true, hexUnit_spells h, bind, Except.bind, htrailing, hleading,
    Bool.false_eq_true, if_false, Char.ofNat_toNat]

/-- Two escaped units, a leading and a trailing one, stand for one character. -/
theorem escape_pair {first second : Nat} {es : List Char} (hfirst : SpellsUnit first ds)
    (hsecond : SpellsUnit second es) (hleading : isLeading first = true)
    (htrailing : isTrailing second = true)
    (hc : c.toNat = (first - 0xD800) * 0x400 + (second - 0xDC00) + 0x10000) (ps : List Piece) :
    escape (.char 'u' :: (chars ds ++ .char '\\' :: .char 'u' :: (chars es ++ ps))) =
      .ok (c, 11) := by
  have hshort : shortEscape? 'u' = none := rfl
  have hnot : isTrailing first = false := by
    simp only [isLeading, Bool.and_eq_true, decide_eq_true_eq] at hleading
    simp only [isTrailing, Bool.and_eq_false_iff, decide_eq_false_iff_not]
    omega
  have hdrop : (chars ds ++ .char '\\' :: .char 'u' :: (chars es ++ ps)).drop 4 =
      .char '\\' :: .char 'u' :: (chars es ++ ps) := by
    cases hfirst
    rfl
  have hsecondHalf : secondHalf first (.char '\\' :: .char 'u' :: (chars es ++ ps)) = .ok c := by
    simp only [secondHalf, hexUnit_spells hsecond, bind, Except.bind, htrailing, if_true, ← hc,
      Char.ofNat_toNat]
  simp only [escape, hshort, if_true, hexUnit_spells hfirst, bind, Except.bind, hnot, hleading,
    Bool.false_eq_true, if_false, hdrop, hsecondHalf]

/-- What an escape takes is passed over. -/
theorem textBody_passed (h : SpellsUnit n ds) (taken : Nat) (ps : List Piece) :
    textBody (taken + 5) (.char 'u' :: (chars ds ++ ps)) = textBody taken ps := by
  cases h
  rfl

/-- **A character is read back from its spelling.** -/
theorem textBody_char (h : SpellsChar c ds) (htail : textBody 0 ps = .ok (cs, broken, left)) :
    textBody 0 (chars ds ++ ps) = .ok (c :: cs, broken, left) := by
  cases h with
  | plain hquote hslash hcontrol => exact textBody_plain hquote hslash hcontrol htail
  | short he => exact textBody_escape (escape_short he ps) htail
  | unit hunit =>
    exact textBody_escape (escape_unit hunit ps) ((textBody_passed hunit 0 ps).trans htail)
  | @pair first second ds es hfirst hsecond hleading htrailing hc =>
    -- the backslash between the halves is passed over as well
    have hpassed : textBody 11 (.char 'u' :: (chars ds ++ .char '\\' :: .char 'u' ::
        (chars es ++ ps))) = textBody 0 ps :=
      (textBody_passed hfirst 6 _).trans (textBody_passed hsecond 0 ps)
    have hread := textBody_escape (escape_pair hfirst hsecond hleading htrailing hc ps)
      (hpassed.trans htail)
    simpa using hread

/-! ### Where nobody looks -/

/-- An escape is passed over with as many pieces as it takes. -/
theorem skipTextBody_escape {taken : Nat} (hescape : skipEscape ps = .ok taken) :
    skipTextBody 0 (.char '\\' :: ps) = skipTextBody taken ps := by
  rw [skipTextBody, if_neg (by decide), if_pos rfl, hescape]
  rfl

/-- An escaped unit is passed over. -/
theorem skipTextBody_unit (h : SpellsUnit n ds) (ps : List Piece) :
    skipTextBody 0 (.char '\\' :: .char 'u' :: (chars ds ++ ps)) = skipTextBody 0 ps := by
  have hshort : shortEscape? 'u' = none := rfl
  have hescape : skipEscape (.char 'u' :: (chars ds ++ ps)) = .ok 5 := by
    simp only [skipEscape, hshort, if_true, hexUnit_spells h, bind, Except.bind]
  rw [skipTextBody_escape hescape]
  cases h
  rfl

/-- A character is passed over. -/
theorem skipTextBody_char (h : SpellsChar c ds) (ps : List Piece) :
    skipTextBody 0 (chars ds ++ ps) = skipTextBody 0 ps := by
  cases h with
  | plain hquote hslash hcontrol =>
    have hskip : skipTextBody 0 (.char c :: ps) = skipTextBody 0 ps := by
      rw [skipTextBody, if_neg hquote, if_neg hslash, if_neg hcontrol]
    exact hskip
  | @short e he =>
    have hescape : skipEscape (.char e :: ps) = .ok 1 := by simp only [skipEscape, he]
    exact skipTextBody_escape hescape
  | unit hunit => exact skipTextBody_unit hunit ps
  | @pair first second ds es hfirst hsecond =>
    have hskip := skipTextBody_unit hfirst (.char '\\' :: .char 'u' :: (chars es ++ ps))
    rw [skipTextBody_unit hsecond] at hskip
    simpa using hskip

end Character

/-! ## A text -/

variable {cs es : List Char}

/-- **A text is read as the characters that it spells**, and ends with the
quotation mark. -/
theorem textBody_spells (h : SpellsText cs es) (rest : List Piece) :
    textBody 0 (chars es ++ .char '"' :: rest) = .ok (cs, false, rest) := by
  induction h with
  | nil => rfl
  | @cons c cs ds es hc _ ih =>
    simp only [List.map_append, List.append_assoc]
    exact textBody_char hc ih

/-- **A text is read back from its quotes**, and nothing behind them is
looked at. -/
theorem quotedText_spells {s : String} (h : SpellsText s.toList es) (rest : List Piece) :
    quotedText (chars es ++ .char '"' :: rest) = .ok (s, rest) := by
  unfold quotedText
  rw [textBody_spells h]
  simp [bind, Except.bind]

/-- A text that nobody looks at is passed over up to the quotation mark. -/
theorem skipTextBody_spells (h : SpellsText cs es) (rest : List Piece) :
    skipTextBody 0 (chars es ++ .char '"' :: rest) = .ok rest := by
  induction h with
  | nil => rfl
  | @cons c cs ds es hc _ ih =>
    simp only [List.map_append, List.append_assoc]
    exact (skipTextBody_char hc _).trans ih

end Json

end TrafficGate
