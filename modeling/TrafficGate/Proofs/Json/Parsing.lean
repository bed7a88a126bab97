import TrafficGate.Json.Parse
import TrafficGate.Proofs.Json.Skipping
/-!
# Values are parsed

A document that is read without a shape gives the value it spells, with the
members of its objects in the order of their keys (`parse_document`). This
is said of values without numbers: those keep what they are written as,
whereas a number is whatever its numeral comes to.
-/

namespace TrafficGate

namespace Json

open Utf8 (Piece)

variable {c : Char} {fuel : Nat} {blanks cs ks : List Char} {ps left rest : List Piece} {x : Json}
  {xs : List Json} {key : String} {members : List (String × Json)}

/-! ## Blanks -/

/-- Blanks in front make no difference to the value that is read. -/
theorem parseValue_blanks (h : Blanks blanks) (fuel : Nat) (ps : List Piece) :
    parseValue fuel (chars blanks ++ ps) = parseValue fuel ps := by
  cases fuel with
  | zero => rfl
  | succ fuel => simp only [parseValue, skipGaps_blanks h]

/-- Nor do they in front of the items of a list. -/
theorem parseItems_skipGaps (fuel : Nat) (ps : List Piece) :
    parseItems fuel (skipGaps ps) = parseItems fuel ps := by
  cases fuel with
  | zero => rfl
  | succ fuel =>
    cases fuel with
    | zero => rfl
    | succ fuel => simp only [parseItems, parseValue, skipGaps_skipGaps]

/-- Nor in front of the members of an object. -/
theorem parseMembers_skipGaps (fuel : Nat) (ps : List Piece) :
    parseMembers fuel (skipGaps ps) = parseMembers fuel ps := by
  cases fuel with
  | zero => rfl
  | succ fuel => simp only [parseMembers, skipGaps_skipGaps]

/-! ## One step -/

/-- A list with an item is read from its first item on. -/
theorem parseValue_list (h : skipGaps ps = .char c :: left) (hc : c ≠ ']')
    (hitems : parseItems fuel ps = .ok (xs, rest)) :
    parseValue (fuel + 1) (.char '[' :: ps) = .ok (.list xs, rest) := by
  rw [← parseItems_skipGaps, h] at hitems
  rw [parseValue, skipGaps_char rfl]
  simp only [h]
  split
  case h_1 heq => cases heq
  case h_2 heq => exact absurd (Piece.char.inj (List.cons.inj heq).1) hc
  case h_3 => simp only [hitems, bind, Except.bind]

/-- An object with a member is read from its first key on. -/
theorem parseValue_object (h : skipGaps ps = .char '"' :: left)
    (hmembers : parseMembers fuel ps = .ok (members, rest)) :
    parseValue (fuel + 1) (.char '\x7b' :: ps) = .ok (.object members, rest) := by
  rw [← parseMembers_skipGaps, h] at hmembers
  rw [parseValue, skipGaps_char rfl]
  simp only [h]
  change (parseMembers fuel (.char '"' :: left) >>= _) = _
  rw [hmembers]
  rfl

/-- Behind an item and a comma there is another one. -/
theorem parseItems_comma {mid : List Piece} (h : parseValue fuel ps = .ok (x, left))
    (hleft : skipGaps left = .char ',' :: mid) (hmid : skipGaps mid = .char c :: rest)
    (hc : c ≠ ']') {rest' : List Piece} (hitems : parseItems fuel mid = .ok (xs, rest')) :
    parseItems (fuel + 1) ps = .ok (x :: xs, rest') := by
  rw [← parseItems_skipGaps, hmid] at hitems
  simp only [parseItems, h, hleft, hmid, bind, Except.bind]
  split
  case h_1 heq => exact absurd (Piece.char.inj (List.cons.inj heq).1) hc
  case h_2 => simp only [hitems]

/-- Behind the last item stands the bracket that ends the list. -/
theorem parseItems_close (h : parseValue fuel ps = .ok (x, left))
    (hleft : skipGaps left = .char ']' :: rest) : parseItems (fuel + 1) ps = .ok ([x], rest) := by
  simp only [parseItems, h, hleft, bind, Except.bind]

/-- Behind a member and a comma there is another one. -/
theorem parseMembers_comma {mid : List Piece} (hkey : SpellsKey key ks)
    (h : parseValue fuel ps = .ok (x, left)) (hleft : skipGaps left = .char ',' :: mid)
    (hmid : skipGaps mid = .char '"' :: rest) {rest' : List Piece}
    (hmembers : parseMembers fuel mid = .ok (members, rest')) :
    parseMembers (fuel + 1) (chars ks ++ ps) = .ok ((key, x) :: members, rest') := by
  obtain ⟨es, behind, after, htext, hbehind, hafter, hskip⟩ := skipGaps_key hkey ps
  rw [← parseMembers_skipGaps, hmid] at hmembers
  simp only [parseMembers, hskip, quotedText_spells htext, colon_blanks hbehind,
    parseValue_blanks hafter, h, hleft, hmid, bind, Except.bind]
  split
  case h_1 heq => cases heq
  case h_2 heq => exact absurd (Piece.char.inj (List.cons.inj heq).1) (by decide)
  case h_3 => simp only [hmembers]

/-- Behind the last member stands the brace that ends the object. -/
theorem parseMembers_close (hkey : SpellsKey key ks) (h : parseValue fuel ps = .ok (x, left))
    (hleft : skipGaps left = .char '\x7d' :: rest) :
    parseMembers (fuel + 1) (chars ks ++ ps) = .ok ([(key, x)], rest) := by
  obtain ⟨es, behind, after, htext, hbehind, hafter, hskip⟩ := skipGaps_key hkey ps
  simp only [parseMembers, hskip, quotedText_spells htext, colon_blanks hbehind,
    parseValue_blanks hafter, h, hleft, bind, Except.bind]

/-! ## Whole values -/

mutual

/-- A value takes no more fuel than its spelling is long. -/
theorem parseValue_spells : ∀ {x : Json} {cs : List Char}, Spells x cs → NumberFree x →
    ∀ {fuel : Nat}, cs.length ≤ fuel → ∀ rest : List Piece,
      parseValue fuel (chars cs ++ rest) = .ok (x, rest)
  | _, _, .null, _, _ + 1, _, _ => rfl
  | _, _, .on, _, _ + 1, _, _ => rfl
  | _, _, .off, _, _ + 1, _, _ => rfl
  | _, _, @Spells.text s es htext, _, _ + 1, _, rest => by
    have happend : chars ('"' :: es ++ ['"']) ++ rest =
        .char '"' :: (chars es ++ .char '"' :: rest) := by simp
    rw [happend, parseValue, skipGaps_char rfl]
    simp only [quotedText_spells htext, bind, Except.bind]
  | _, _, @Spells.nil blanks hblanks, _, _ + 1, _, rest => by
    have hskip := skipGaps_token hblanks (rfl : isGap ']' = false) rest
    have happend : chars ('[' :: blanks ++ [']']) ++ rest =
        .char '[' :: (chars blanks ++ .char ']' :: rest) := by simp
    rw [happend, parseValue, skipGaps_char rfl]
    simp only [hskip]
  | _, _, @Spells.list x xs blanks cs ts hblanks hx hitems, .list hfree, fuel, hfuel, rest => by
    have hxpos := hx.length_pos
    have htpos := hitems.length_pos
    simp only [List.length_append, List.length_cons] at hfuel
    obtain ⟨fuel, rfl⟩ : ∃ f, fuel = f + 2 := ⟨fuel - 2, by omega⟩
    obtain ⟨hxfree, hxsfree⟩ := List.forall_mem_cons.1 hfree
    have hvalue : parseValue fuel (chars cs ++ (chars ts ++ rest)) = .ok (x, chars ts ++ rest) :=
      parseValue_spells hx hxfree (by omega) _
    have hrest : parseItems (fuel + 1) (chars blanks ++ (chars cs ++ (chars ts ++ rest))) =
        .ok (x :: xs, rest) :=
      parseItems_spells hitems hxsfree (by omega) ((parseValue_blanks hblanks fuel _).trans hvalue)
    obtain ⟨c, left, -, hc, hskip⟩ := skipGaps_spells hx hblanks (chars ts ++ rest)
    have happend : chars ('[' :: blanks ++ cs ++ ts) ++ rest =
        .char '[' :: (chars blanks ++ (chars cs ++ (chars ts ++ rest))) := by simp
    rw [happend]
    exact parseValue_list hskip hc.bracket hrest
  | _, _, @Spells.empty blanks hblanks, _, _ + 1, _, rest => by
    have hskip := skipGaps_token hblanks (rfl : isGap '\x7d' = false) rest
    have happend : chars ('\x7b' :: blanks ++ ['\x7d']) ++ rest =
        .char '\x7b' :: (chars blanks ++ .char '\x7d' :: rest) := by simp
    rw [happend, parseValue, skipGaps_char rfl]
    simp only [hskip]
  | _, _, @Spells.object key x members ks cs ts hkey hx hmembers, .object hfree, fuel, hfuel,
      rest => by
    have hxpos := hx.length_pos
    have htpos := hmembers.length_pos
    simp only [List.length_append, List.length_cons] at hfuel
    obtain ⟨fuel, rfl⟩ : ∃ f, fuel = f + 2 := ⟨fuel - 2, by omega⟩
    obtain ⟨hxfree, hmembersfree⟩ := List.forall_mem_cons.1 hfree
    have hvalue : parseValue fuel (chars cs ++ (chars ts ++ rest)) = .ok (x, chars ts ++ rest) :=
      parseValue_spells hx hxfree (by omega) _
    have hrest : parseMembers (fuel + 1) (chars ks ++ (chars cs ++ (chars ts ++ rest))) =
        .ok ((key, x) :: members, rest) :=
      parseMembers_spells hmembers hmembersfree (by omega) hkey hvalue
    obtain ⟨es, behind, after, -, -, -, hskip⟩ := skipGaps_key hkey (chars cs ++ (chars ts ++ rest))
    have happend : chars ('\x7b' :: ks ++ cs ++ ts) ++ rest =
        .char '\x7b' :: (chars ks ++ (chars cs ++ (chars ts ++ rest))) := by simp
    rw [happend]
    exact parseValue_object hskip hrest

/-- What stands behind the first item, once that is read, is read as the
other items. -/
theorem parseItems_spells : ∀ {xs : List Json} {ts : List Char}, SpellsItems xs ts →
    (∀ x ∈ xs, NumberFree x) → ∀ {fuel : Nat}, ts.length ≤ fuel →
      ∀ {x : Json} {ps rest : List Piece}, parseValue fuel ps = .ok (x, chars ts ++ rest) →
        parseItems (fuel + 1) ps = .ok (x :: xs, rest)
  | _, _, @SpellsItems.close blanks hblanks, _, fuel, hfuel, x, ps, rest, h => by
    have hskip : skipGaps (chars (blanks ++ [']']) ++ rest) = .char ']' :: rest := by
      simpa using skipGaps_token hblanks (rfl : isGap ']' = false) rest
    exact parseItems_close h hskip
  | _, _, @SpellsItems.item x xs before after cs ts hbefore hafter hx hitems, hfree, fuel, hfuel,
      y, ps, rest, h => by
    have hxpos := hx.length_pos
    have htpos := hitems.length_pos
    simp only [List.length_append, List.length_cons] at hfuel
    obtain ⟨fuel, rfl⟩ : ∃ f, fuel = f + 1 := ⟨fuel - 1, by omega⟩
    obtain ⟨hxfree, hxsfree⟩ := List.forall_mem_cons.1 hfree
    have hvalue : parseValue fuel (chars cs ++ (chars ts ++ rest)) = .ok (x, chars ts ++ rest) :=
      parseValue_spells hx hxfree (by omega) _
    have hrest : parseItems (fuel + 1) (chars after ++ (chars cs ++ (chars ts ++ rest))) =
        .ok (x :: xs, rest) :=
      parseItems_spells hitems hxsfree (by omega) ((parseValue_blanks hafter fuel _).trans hvalue)
    obtain ⟨c, left, -, hc, hmid⟩ := skipGaps_spells hx hafter (chars ts ++ rest)
    have hskip : skipGaps (chars (before ++ ',' :: after ++ cs ++ ts) ++ rest) =
        .char ',' :: (chars after ++ (chars cs ++ (chars ts ++ rest))) := by
      simpa using skipGaps_token hbefore (rfl : isGap ',' = false)
        (chars after ++ (chars cs ++ (chars ts ++ rest)))
    exact parseItems_comma h hskip hmid hc.bracket hrest

/-- What stands behind the first member, once that is read, is read as the
other members. -/
theorem parseMembers_spells : ∀ {members : List (String × Json)} {ts : List Char},
    SpellsMembers members ts → (∀ m ∈ members, NumberFree m.2) → ∀ {fuel : Nat},
      ts.length ≤ fuel → ∀ {key : String} {ks : List Char} {x : Json} {ps rest : List Piece},
        SpellsKey key ks → parseValue fuel ps = .ok (x, chars ts ++ rest) →
          parseMembers (fuel + 1) (chars ks ++ ps) = .ok ((key, x) :: members, rest)
  | _, _, @SpellsMembers.close blanks hblanks, _, fuel, hfuel, key, ks, x, ps, rest, hkey, h => by
    have hskip : skipGaps (chars (blanks ++ ['\x7d']) ++ rest) = .char '\x7d' :: rest := by
      simpa using skipGaps_token hblanks (rfl : isGap '\x7d' = false) rest
    exact parseMembers_close hkey h hskip
  | _, _, @SpellsMembers.member key' x members before ks' cs ts hbefore hkey' hx hmembers, hfree,
      fuel, hfuel, key, ks, y, ps, rest, hkey, h => by
    have hxpos := hx.length_pos
    have htpos := hmembers.length_pos
    simp only [List.length_append, List.length_cons] at hfuel
    obtain ⟨fuel, rfl⟩ : ∃ f, fuel = f + 1 := ⟨fuel - 1, by omega⟩
    obtain ⟨hxfree, hmembersfree⟩ := List.forall_mem_cons.1 hfree
    have hvalue : parseValue fuel (chars cs ++ (chars ts ++ rest)) = .ok (x, chars ts ++ rest) :=
      parseValue_spells hx hxfree (by omega) _
    have hrest : parseMembers (fuel + 1) (chars ks' ++ (chars cs ++ (chars ts ++ rest))) =
        .ok ((key', x) :: members, rest) :=
      parseMembers_spells hmembers hmembersfree (by omega) hkey' hvalue
    obtain ⟨es, behind, gap, -, -, -, hmid⟩ := skipGaps_key hkey' (chars cs ++ (chars ts ++ rest))
    have hskip : skipGaps (chars (before ++ ',' :: ks' ++ cs ++ ts) ++ rest) =
        .char ',' :: (chars ks' ++ (chars cs ++ (chars ts ++ rest))) := by
      simpa using skipGaps_token hbefore (rfl : isGap ',' = false)
        (chars ks' ++ (chars cs ++ (chars ts ++ rest)))
    exact parseMembers_comma hkey h hskip hmid hrest

end

/-- **A document is parsed as the value it spells**, with its members in
order. -/
theorem parse_document {s : String} (h : Document x s.toList) (hx : NumberFree x) :
    parse (Utf8.ofString s) = .ok x.ordered := by
  generalize hcs : s.toList = cs at h
  obtain @⟨before, cs, after, hbefore, hspells, hafter⟩ := h
  have hpieces : Utf8.ofString s = chars before ++ (chars cs ++ (chars after ++ [])) := by
    simp [Utf8.ofString, hcs]
  have hfuel : cs.length ≤ 2 * (chars before ++ (chars cs ++ (chars after ++ []))).length + 2 := by
    simp only [List.length_append, List.length_map]
    omega
  have hafter : skipGaps (chars after ++ []) = [] := skipGaps_blanks hafter []
  rw [parse, hpieces, parseValue_blanks hbefore, parseValue_spells hspells hx hfuel]
  simp only [hafter, bind, Except.bind]

end Json

end TrafficGate
