import TrafficGate.Json.Skip
import TrafficGate.Proofs.Json.Texts
/-!
# Values are passed over

What nobody looks at is passed over up to its end, however it is spelled
and whatever stands in it (`skipValue_spells`). Only a numeral has no end of
its own: it ends where nothing stands that could go on with it (`Stops`),
and behind an item of a list or a member of an object that is always so.
-/

namespace TrafficGate

namespace Json

open Utf8 (Piece)

variable {c : Char} {cs blanks : List Char} {ps rest : List Piece} {x : Json}

/-! ## Blanks and colons -/

/-- Gaps in front are all passed over, however many. -/
theorem skipGaps_blanks (h : Blanks blanks) (ps : List Piece) :
    skipGaps (chars blanks ++ ps) = skipGaps ps := by
  induction blanks with
  | nil => rfl
  | cons c cs ih =>
    obtain ⟨hc, hcs⟩ := List.forall_mem_cons.1 h
    simp only [List.map_cons, List.cons_append, skipGaps, hc, if_true]
    exact ih hcs

/-- Where there is no gap, nothing is passed over. -/
theorem skipGaps_char (h : isGap c = false) (ps : List Piece) :
    skipGaps (.char c :: ps) = .char c :: ps := by
  simp [skipGaps, h]

/-- A token behind blanks. -/
theorem skipGaps_token (h : Blanks blanks) (hc : isGap c = false) (ps : List Piece) :
    skipGaps (chars blanks ++ .char c :: ps) = .char c :: ps :=
  (skipGaps_blanks h _).trans (skipGaps_char hc ps)

/-- A colon is found behind blanks. -/
theorem colon_blanks (h : Blanks blanks) (ps : List Piece) :
    colon (chars blanks ++ .char ':' :: ps) = .ok ps := by
  have hcolon : isGap ':' = false := rfl
  simp only [colon, skipGaps_token h hcolon]

/-! ## Numerals -/

/-- Nothing that could go on with a numeral stands first. -/
def Stops (ps : List Piece) : Prop :=
  ∀ c rest, ps = .char c :: rest → Text.decimalValue? c = none ∧ c ∉ ['.', 'e', 'E']

/-- A character that continues no numeral stops it. -/
theorem stops_char (hdigit : Text.decimalValue? c = none) (h : c ∉ ['.', 'e', 'E'])
    (ps : List Piece) : Stops (.char c :: ps) := by
  rintro _ _ ⟨⟩
  exact ⟨hdigit, h⟩

/-- Behind blanks a numeral stops where it would stop without them. -/
theorem stops_blanks (h : Blanks blanks) (hps : Stops ps) : Stops (chars blanks ++ ps) := by
  cases blanks with
  | nil => exact hps
  | cons c cs =>
    have hc : isGap c = true := h c List.mem_cons_self
    simp only [isGap, Bool.or_eq_true, decide_eq_true_eq] at hc
    rcases hc with ((rfl | rfl) | rfl) | rfl
    all_goals exact stops_char rfl (by decide) _

/-- There are ten digits. -/
theorem mem_digits (h : (Text.decimalValue? c).isSome = true) :
    c ∈ ['0', '1', '2', '3', '4', '5', '6', '7', '8', '9'] := by
  have hrange : 48 ≤ c.toNat ∧ c.toNat ≤ 57 := by
    unfold Text.decimalValue? at h
    split at h
    case isTrue hc => exact hc
    case isFalse => cases h
  have hfinite : ∀ k < 10,
      Char.ofNat (48 + k) ∈ ['0', '1', '2', '3', '4', '5', '6', '7', '8', '9'] := by decide
  have hc := hfinite (c.toNat - 48) (by omega)
  rwa [Nat.add_sub_cancel' hrange.1, Char.ofNat_toNat] at hc

/-- Digits are run through up to where none stands. -/
theorem digitRun_digits (h : ∀ c ∈ cs, (Text.decimalValue? c).isSome = true)
    (hrest : digitRun rest = ([], rest)) :
    digitRun (chars cs ++ rest) = (cs.filterMap Text.decimalValue?, rest) := by
  induction cs with
  | nil => exact hrest
  | cons c cs ih =>
    obtain ⟨hc, hcs⟩ := List.forall_mem_cons.1 h
    obtain ⟨v, hv⟩ := Option.isSome_iff_exists.1 hc
    simp only [List.map_cons, List.cons_append, digitRun, digitValue?, hv, ih hcs,
      List.filterMap_cons_some hv]

/-- A character that is no digit ends a run of them. -/
theorem digitRun_char (h : Text.decimalValue? c = none) (ps : List Piece) :
    digitRun (.char c :: ps) = ([], .char c :: ps) := by
  simp only [digitRun, digitValue?, h]

/-- Where a numeral stops, there are no digits. -/
theorem Stops.digitRun (h : Stops rest) : digitRun rest = ([], rest) := by
  cases rest with
  | nil => rfl
  | cons p rest =>
    cases p with
    | broken bytes => rfl
    | char c => exact digitRun_char (h c rest rfl).1 rest

/-- One digit at least is found. -/
theorem Digits.filterMap_ne_nil (h : Digits cs) : cs.filterMap Text.decimalValue? ≠ [] := by
  obtain ⟨c, tail, rfl⟩ := List.exists_cons_of_ne_nil h.ne_nil
  obtain ⟨v, hv⟩ := Option.isSome_iff_exists.1 (h.digit c List.mem_cons_self)
  rw [List.filterMap_cons_some hv]
  exact List.cons_ne_nil _ _

section Numerals

variable {scale fraction whole : List Char}

/-- A scale, or what stands in its place, begins with no digit. -/
theorem Scale.digitRun (h : Scale scale) (hrest : Stops rest) :
    digitRun (chars scale ++ rest) = ([], chars scale ++ rest) := by
  cases h with
  | none => exact hrest.digitRun
  | @digits e sign cs he =>
    simp only [List.mem_cons, List.not_mem_nil, or_false] at he
    rcases he with rfl | rfl
    all_goals exact digitRun_char rfl _

/-- Without a letter for a power of ten there is no exponent to pass over. -/
theorem skipNumber_exponent_stops (hrest : Stops rest) : skipNumber.exponent rest = .ok rest := by
  unfold skipNumber.exponent
  split
  case h_1 c rest =>
    have hc := (hrest c rest rfl).2
    simp only [List.mem_cons, List.not_mem_nil, or_false, not_or] at hc
    simp [hc]
  case h_2 => rfl

/-- A sign is passed over, and a digit is none. -/
theorem skipNumber_exponent_digits {e : Char} {sign : List Char} (he : e ∈ ['e', 'E'])
    (hsign : sign ∈ [[], ['+'], ['-']]) (hcs : Digits cs) (ps : List Piece) :
    skipNumber.exponent (.char e :: (chars sign ++ (chars cs ++ ps))) =
      match digitRun (chars cs ++ ps) with
      | ([], _) => .error .invalidNumber
      | (_, left) => .ok left := by
  have hletter : (e = 'e' || e = 'E') = true := by simpa using he
  simp only [List.mem_cons, List.not_mem_nil, or_false] at hsign
  simp only [skipNumber.exponent, hletter, if_true]
  rcases hsign with rfl | rfl | rfl
  · obtain ⟨d, tail, rfl⟩ := List.exists_cons_of_ne_nil hcs.ne_nil
    have hd := mem_digits (hcs.digit d List.mem_cons_self)
    simp only [List.mem_cons, List.not_mem_nil, or_false] at hd
    rcases hd with rfl | rfl | rfl | rfl | rfl | rfl | rfl | rfl | rfl | rfl
    all_goals rfl
  · rfl
  · rfl

/-- The exponent of a numeral is passed over, whether there is one or not. -/
theorem skipNumber_exponent (h : Scale scale) (hrest : Stops rest) :
    skipNumber.exponent (chars scale ++ rest) = .ok rest := by
  cases h with
  | none => exact skipNumber_exponent_stops hrest
  | @digits e sign cs he hsign hcs =>
    have hrun := digitRun_digits hcs.digit hrest.digitRun
    have hexponent := skipNumber_exponent_digits he hsign hcs rest
    obtain ⟨v, vs, hvs⟩ := List.exists_cons_of_ne_nil hcs.filterMap_ne_nil
    rw [hrun, hvs] at hexponent
    simpa using hexponent

/-- No exponent begins with a point. -/
theorem skipNumber_fraction_none (h : Scale scale) (hrest : Stops rest) :
    skipNumber.fraction (chars scale ++ rest) = skipNumber.exponent (chars scale ++ rest) := by
  unfold skipNumber.fraction
  split
  case h_1 heq =>
    cases h with
    | none =>
      have hpoint := (hrest _ _ heq).2
      simp at hpoint
    | digits he =>
      obtain rfl := Piece.char.inj (List.cons.inj heq).1
      simp at he
  case h_2 => rfl

/-- The fraction and what follows are passed over, whether there is one or
not. -/
theorem skipNumber_fraction (hfraction : Fraction fraction) (hscale : Scale scale)
    (hrest : Stops rest) :
    skipNumber.fraction (chars fraction ++ (chars scale ++ rest)) = .ok rest := by
  have hexponent := skipNumber_exponent hscale hrest
  cases hfraction with
  | none => exact (skipNumber_fraction_none hscale hrest).trans hexponent
  | @digits cs hcs =>
    have hrun := digitRun_digits hcs.digit (hscale.digitRun hrest)
    obtain ⟨v, vs, hvs⟩ := List.exists_cons_of_ne_nil hcs.filterMap_ne_nil
    rw [hvs] at hrun
    simp only [List.map_cons, List.cons_append, skipNumber.fraction, hrun]
    exact hexponent

/-- A fraction, or what stands in its place, begins with no digit. -/
theorem Fraction.digitRun (h : Fraction fraction) (hscale : Scale scale) (hrest : Stops rest) :
    Json.digitRun (chars fraction ++ (chars scale ++ rest)) =
      ([], chars fraction ++ (chars scale ++ rest)) := by
  cases h with
  | none => exact hscale.digitRun hrest
  | digits => exact digitRun_char rfl _

/-- The digits in front of a point do not begin with a zero, unless it is
the only one. -/
theorem skipNumber_whole (h : Whole whole) (hps : digitRun ps = ([], ps)) :
    skipNumber (chars whole ++ ps) = skipNumber.fraction ps := by
  cases h with
  | zero =>
    have hrun : digitRun (.char '0' :: ps) = ([0], ps) := by
      simp only [digitRun, digitValue?, hps]
      rfl
    simp only [List.map_cons, List.map_nil, List.cons_append, List.nil_append, skipNumber, hrun]
  | @digits c cs hzero hcs =>
    have hrun := digitRun_digits hcs.digit hps
    have hc := hcs.digit c List.mem_cons_self
    obtain ⟨v, hv⟩ := Option.isSome_iff_exists.1 hc
    have hne : v ≠ 0 := by
      rintro rfl
      have hmem := mem_digits hc
      simp only [List.mem_cons, List.not_mem_nil, or_false, hzero, false_or] at hmem
      rcases hmem with rfl | rfl | rfl | rfl | rfl | rfl | rfl | rfl | rfl
      all_goals cases hv
    rw [List.filterMap_cons_some hv] at hrun
    unfold skipNumber
    rw [hrun]
    split
    case h_1 heq => cases heq
    case h_2 heq => exact absurd (List.cons.inj (Prod.mk.inj heq).1).1 hne
    case h_3 heq => rw [(Prod.mk.inj heq).2]

end Numerals

/-! ## How a value begins -/

/-- How a value may begin: with no blank, no comma and no bracket that
closes, and with an `n` only if it is null. -/
structure Begins (x : Json) (c : Char) : Prop where
  gap : isGap c = false
  comma : c ≠ ','
  bracket : c ≠ ']'
  null : c = 'n' → x = .null

/-- A value may begin with each of these characters. -/
theorem begins_of_mem (h : c ∈ ['t', 'f', '"', '[', '\x7b', '-', '0', '1', '2', '3', '4', '5', '6',
    '7', '8', '9']) : Begins x c := by
  simp only [List.mem_cons, List.not_mem_nil, or_false] at h
  rcases h with rfl | rfl | rfl | rfl | rfl | rfl | rfl | rfl | rfl | rfl | rfl | rfl | rfl | rfl |
    rfl | rfl
  all_goals exact ⟨by decide, by decide, by decide, fun hn => absurd hn (by decide)⟩

/-- A whole number begins with a digit. -/
theorem Whole.begins (h : Whole cs) :
    ∃ c tail, cs = c :: tail ∧ (Text.decimalValue? c).isSome = true := by
  cases h with
  | zero => exact ⟨'0', [], rfl, rfl⟩
  | digits hzero hcs => exact ⟨_, _, rfl, hcs.digit _ List.mem_cons_self⟩

/-- A numeral begins with a digit or a sign. -/
theorem Numeral.begins (h : Numeral cs) : ∃ c tail, cs = c :: tail ∧ Begins x c := by
  obtain ⟨hsign, hwhole, -, -⟩ := h
  simp only [List.mem_cons, List.not_mem_nil, or_false] at hsign
  rcases hsign with rfl | rfl
  · obtain ⟨d, tail, rfl, hd⟩ := hwhole.begins
    exact ⟨d, _, rfl, begins_of_mem (List.mem_append_right ['t', 'f', '"', '[', '\x7b', '-']
      (mem_digits hd))⟩
  · exact ⟨'-', _, rfl, begins_of_mem (by decide)⟩

/-- What spells a value begins as a value may. -/
theorem Spells.begins (h : Spells x cs) : ∃ c tail, cs = c :: tail ∧ Begins x c := by
  cases h with
  | null => exact ⟨'n', _, rfl, by decide, by decide, by decide, fun _ => rfl⟩
  | on => exact ⟨'t', _, rfl, begins_of_mem (by decide)⟩
  | off => exact ⟨'f', _, rfl, begins_of_mem (by decide)⟩
  | number hcs => exact hcs.begins
  | text => exact ⟨'"', _, rfl, begins_of_mem (by decide)⟩
  | nil => exact ⟨'[', _, rfl, begins_of_mem (by decide)⟩
  | list => exact ⟨'[', _, rfl, begins_of_mem (by decide)⟩
  | empty => exact ⟨'\x7b', _, rfl, begins_of_mem (by decide)⟩
  | object => exact ⟨'\x7b', _, rfl, begins_of_mem (by decide)⟩

/-- A value behind blanks. -/
theorem skipGaps_spells (h : Spells x cs) (hblanks : Blanks blanks) (rest : List Piece) :
    ∃ c left, chars cs ++ rest = .char c :: left ∧ Begins x c ∧
      skipGaps (chars blanks ++ (chars cs ++ rest)) = .char c :: left := by
  obtain ⟨c, tail, rfl, hc⟩ := h.begins
  refine ⟨c, chars tail ++ rest, rfl, hc, ?_⟩
  rw [skipGaps_blanks hblanks]
  exact skipGaps_char hc.gap _

/-- A key behind its blanks. -/
theorem skipGaps_key {key : String} {ks : List Char} (h : SpellsKey key ks) (ps : List Piece) :
    ∃ es behind after, SpellsText key.toList es ∧ Blanks behind ∧ Blanks after ∧
      skipGaps (chars ks ++ ps) = .char '"' :: (chars es ++ .char '"' ::
        (chars behind ++ .char ':' :: (chars after ++ ps))) := by
  obtain ⟨hbefore, htext, hbehind, hafter⟩ := h
  refine ⟨_, _, _, htext, hbehind, hafter, ?_⟩
  simp only [List.map_append, List.map_cons, List.append_assoc, List.cons_append]
  exact skipGaps_token hbefore rfl _

/-- Behind an item or a member no numeral goes on. -/
theorem SpellsItems.stops {xs : List Json} {ts : List Char} (h : SpellsItems xs ts)
    (rest : List Piece) : Stops (chars ts ++ rest) := by
  cases h with
  | close hblanks =>
    have hstops := stops_blanks hblanks (stops_char rfl (by decide) rest : Stops (.char ']' :: _))
    simpa using hstops
  | @item _ _ before after cs ts hbefore =>
    have hstops := stops_blanks hbefore (stops_char rfl (by decide)
      (chars after ++ (chars cs ++ (chars ts ++ rest))) : Stops (.char ',' :: _))
    simpa using hstops

/-- A numeral in front of further members or of the brace stops there. -/
theorem SpellsMembers.stops {members : List (String × Json)} {ts : List Char}
    (h : SpellsMembers members ts) (rest : List Piece) : Stops (chars ts ++ rest) := by
  cases h with
  | close hblanks =>
    have hstops := stops_blanks hblanks
      (stops_char rfl (by decide) rest : Stops (.char '\x7d' :: _))
    simpa using hstops
  | @member _ _ _ before ks cs ts hbefore =>
    have hstops := stops_blanks hbefore (stops_char rfl (by decide)
      (chars ks ++ (chars cs ++ (chars ts ++ rest))) : Stops (.char ',' :: _))
    simpa using hstops

/-! ## Passing over a value -/

section Fuel

variable {fuel : Nat}

/-- Blanks in front make no difference to how a value is passed over. -/
theorem skipValueWithin_blanks (h : Blanks blanks) (fuel : Nat) (ps : List Piece) :
    skipValueWithin fuel (chars blanks ++ ps) = skipValueWithin fuel ps := by
  cases fuel with
  | zero => rfl
  | succ fuel => simp only [skipValueWithin, skipGaps_blanks h]

/-- To pass over gaps twice is to do it once. -/
theorem skipGaps_skipGaps (ps : List Piece) : skipGaps (skipGaps ps) = skipGaps ps := by
  induction ps with
  | nil => rfl
  | cons p ps ih =>
    cases p with
    | broken bytes => rfl
    | char c =>
      by_cases hc : isGap c = true
      · simpa only [skipGaps, hc, if_true] using ih
      · rw [skipGaps_char (Bool.not_eq_true _ ▸ hc), skipGaps_char (Bool.not_eq_true _ ▸ hc)]

/-- Blanks in front make no difference to how items are passed over. -/
theorem skipItems_skipGaps (fuel : Nat) (ps : List Piece) :
    skipItems fuel (skipGaps ps) = skipItems fuel ps := by
  cases fuel with
  | zero => rfl
  | succ fuel =>
    cases fuel with
    | zero => rfl
    | succ fuel => simp only [skipItems, skipValueWithin, skipGaps_skipGaps]

/-- Nor to how members are. -/
theorem skipMembers_skipGaps (fuel : Nat) (ps : List Piece) :
    skipMembers fuel (skipGaps ps) = skipMembers fuel ps := by
  cases fuel with
  | zero => rfl
  | succ fuel => simp only [skipMembers, skipGaps_skipGaps]

/-- A numeral is passed over as a whole. -/
theorem skipValueWithin_numeral (h : Numeral cs) (hrest : Stops rest) (fuel : Nat) :
    skipValueWithin (fuel + 1) (chars cs ++ rest) = .ok rest := by
  obtain @⟨sign, whole, fraction, scale, hsign, hwhole, hfraction, hscale⟩ := h
  have hskip : skipNumber (chars whole ++ (chars fraction ++ (chars scale ++ rest))) = .ok rest :=
    (skipNumber_whole hwhole (hfraction.digitRun hscale hrest)).trans
      (skipNumber_fraction hfraction hscale hrest)
  simp only [List.map_append, List.append_assoc]
  simp only [List.mem_cons, List.not_mem_nil, or_false] at hsign
  rcases hsign with rfl | rfl
  · obtain ⟨d, tail, rfl, hd⟩ := hwhole.begins
    have hmem := mem_digits hd
    simp only [List.mem_cons, List.not_mem_nil, or_false] at hmem
    rcases hmem with rfl | rfl | rfl | rfl | rfl | rfl | rfl | rfl | rfl | rfl
    all_goals exact hskip
  · exact hskip

/-- Inside the bracket of a list that is not empty there are items, -/
theorem skipValueWithin_list {left : List Piece} (h : skipGaps ps = .char c :: left)
    (hc : c ≠ ']') : skipValueWithin (fuel + 1) (.char '[' :: ps) = skipItems fuel ps := by
  rw [← skipItems_skipGaps, h, skipValueWithin, skipGaps_char rfl]
  simp only [h]
  split
  case h_1 heq => cases heq
  case h_2 heq => exact absurd (Piece.char.inj (List.cons.inj heq).1) hc
  case h_3 => rfl

/-- and inside the brace of an object members. -/
theorem skipValueWithin_object {left : List Piece} (h : skipGaps ps = .char '"' :: left) :
    skipValueWithin (fuel + 1) (.char '\x7b' :: ps) = skipMembers fuel ps := by
  rw [← skipMembers_skipGaps, h, skipValueWithin, skipGaps_char rfl]
  simp only [h]
  rfl

/-! ### Behind a value -/

section Behind

variable {left : List Piece} {key : String} {ks : List Char}

/-- Behind a comma the next item is passed over. -/
theorem skipItems_comma (h : skipValueWithin fuel ps = .ok left)
    (hleft : skipGaps left = .char ',' :: rest) :
    skipItems (fuel + 1) ps = skipItems fuel rest := by
  simp only [skipItems, h, hleft, bind, Except.bind]

/-- The bracket ends the items. -/
theorem skipItems_close (h : skipValueWithin fuel ps = .ok left)
    (hleft : skipGaps left = .char ']' :: rest) : skipItems (fuel + 1) ps = .ok rest := by
  simp only [skipItems, h, hleft, bind, Except.bind]

/-- Behind a comma the next member is passed over. -/
theorem skipMembers_comma (hkey : SpellsKey key ks) (h : skipValueWithin fuel ps = .ok left)
    (hleft : skipGaps left = .char ',' :: rest) :
    skipMembers (fuel + 1) (chars ks ++ ps) = skipMembers fuel rest := by
  obtain ⟨es, behind, after, htext, hbehind, hafter, hskip⟩ := skipGaps_key hkey ps
  simp only [skipMembers, hskip, skipTextBody_spells htext, colon_blanks hbehind,
    skipValueWithin_blanks hafter, h, hleft, bind, Except.bind]

/-- The brace ends the members. -/
theorem skipMembers_close (hkey : SpellsKey key ks) (h : skipValueWithin fuel ps = .ok left)
    (hleft : skipGaps left = .char '\x7d' :: rest) :
    skipMembers (fuel + 1) (chars ks ++ ps) = .ok rest := by
  obtain ⟨es, behind, after, htext, hbehind, hafter, hskip⟩ := skipGaps_key hkey ps
  simp only [skipMembers, hskip, skipTextBody_spells htext, colon_blanks hbehind,
    skipValueWithin_blanks hafter, h, hleft, bind, Except.bind]

end Behind

/-- Whatever ends a list takes at least a bracket. -/
theorem SpellsItems.length_pos {xs : List Json} {ts : List Char} (h : SpellsItems xs ts) :
    0 < ts.length := by
  cases h with
  | close => simp
  | item =>
    simp only [List.length_append, List.length_cons]
    omega

/-- Whatever ends an object takes at least a brace. -/
theorem SpellsMembers.length_pos {members : List (String × Json)} {ts : List Char}
    (h : SpellsMembers members ts) : 0 < ts.length := by
  cases h with
  | close => simp
  | member =>
    simp only [List.length_append, List.length_cons]
    omega

/-- No value is spelled by nothing, so there is fuel for one more step. -/
theorem Spells.length_pos (h : Spells x cs) : 0 < cs.length := by
  obtain ⟨c, tail, rfl, -⟩ := h.begins
  exact Nat.succ_pos _

mutual

/-- A value takes no more fuel than its spelling is long. -/
theorem skipValueWithin_spells : ∀ {x : Json} {cs : List Char}, Spells x cs →
    ∀ {fuel : Nat}, cs.length ≤ fuel → ∀ {rest : List Piece}, Stops rest →
      skipValueWithin fuel (chars cs ++ rest) = .ok rest
  | _, _, .null, _ + 1, _, _, _ => rfl
  | _, _, .on, _ + 1, _, _, _ => rfl
  | _, _, .off, _ + 1, _, _, _ => rfl
  | _, _, @Spells.number n cs hcs, fuel, hfuel, _, hrest => by
    have hpos : 0 < cs.length := (Spells.number hcs : Spells (.number n) cs).length_pos
    obtain ⟨fuel, rfl⟩ : ∃ f, fuel = f + 1 := ⟨fuel - 1, by omega⟩
    exact skipValueWithin_numeral hcs hrest fuel
  | _, _, @Spells.text s es htext, _ + 1, _, rest, _ => by
    have hskip := skipTextBody_spells htext rest
    have happend : chars ('"' :: es ++ ['"']) ++ rest =
        .char '"' :: (chars es ++ .char '"' :: rest) := by simp
    rw [happend]
    exact hskip
  | _, _, @Spells.nil blanks hblanks, _ + 1, _, rest, _ => by
    have hskip := skipGaps_token hblanks (rfl : isGap ']' = false) rest
    have happend : chars ('[' :: blanks ++ [']']) ++ rest =
        .char '[' :: (chars blanks ++ .char ']' :: rest) := by simp
    rw [happend, skipValueWithin, skipGaps_char rfl]
    simp only [hskip]
  | _, _, @Spells.list x xs blanks cs ts hblanks hx hitems, fuel, hfuel, rest, _ => by
    have hxpos := hx.length_pos
    have htpos := hitems.length_pos
    simp only [List.length_append, List.length_cons] at hfuel
    obtain ⟨fuel, rfl⟩ : ∃ f, fuel = f + 2 := ⟨fuel - 2, by omega⟩
    have hvalue : skipValueWithin fuel (chars cs ++ (chars ts ++ rest)) = .ok (chars ts ++ rest) :=
      skipValueWithin_spells hx (by omega) (hitems.stops rest)
    have hrest : skipItems (fuel + 1) (chars blanks ++ (chars cs ++ (chars ts ++ rest))) =
        .ok rest :=
      skipItems_spells hitems (by omega) ((skipValueWithin_blanks hblanks fuel _).trans hvalue)
    obtain ⟨c, left, -, hc, hskip⟩ := skipGaps_spells hx hblanks (chars ts ++ rest)
    have happend : chars ('[' :: blanks ++ cs ++ ts) ++ rest =
        .char '[' :: (chars blanks ++ (chars cs ++ (chars ts ++ rest))) := by simp
    rw [happend, skipValueWithin_list hskip hc.bracket]
    exact hrest
  | _, _, @Spells.empty blanks hblanks, _ + 1, _, rest, _ => by
    have hskip := skipGaps_token hblanks (rfl : isGap '\x7d' = false) rest
    have happend : chars ('\x7b' :: blanks ++ ['\x7d']) ++ rest =
        .char '\x7b' :: (chars blanks ++ .char '\x7d' :: rest) := by simp
    rw [happend, skipValueWithin, skipGaps_char rfl]
    simp only [hskip]
  | _, _, @Spells.object key x members ks cs ts hkey hx hmembers, fuel, hfuel, rest, _ => by
    have hxpos := hx.length_pos
    have htpos := hmembers.length_pos
    simp only [List.length_append, List.length_cons] at hfuel
    obtain ⟨fuel, rfl⟩ : ∃ f, fuel = f + 2 := ⟨fuel - 2, by omega⟩
    have hvalue : skipValueWithin fuel (chars cs ++ (chars ts ++ rest)) = .ok (chars ts ++ rest) :=
      skipValueWithin_spells hx (by omega) (hmembers.stops rest)
    have hrest : skipMembers (fuel + 1) (chars ks ++ (chars cs ++ (chars ts ++ rest))) =
        .ok rest :=
      skipMembers_spells hmembers (by omega) hkey hvalue
    obtain ⟨es, behind, after, -, -, -, hskip⟩ := skipGaps_key hkey (chars cs ++ (chars ts ++ rest))
    have happend : chars ('\x7b' :: ks ++ cs ++ ts) ++ rest =
        .char '\x7b' :: (chars ks ++ (chars cs ++ (chars ts ++ rest))) := by simp
    rw [happend, skipValueWithin_object hskip]
    exact hrest

/-- Behind the first item, the other items and the bracket are passed over. -/
theorem skipItems_spells : ∀ {xs : List Json} {ts : List Char}, SpellsItems xs ts →
    ∀ {fuel : Nat}, ts.length ≤ fuel → ∀ {ps rest : List Piece},
      skipValueWithin fuel ps = .ok (chars ts ++ rest) → skipItems (fuel + 1) ps = .ok rest
  | _, _, @SpellsItems.close blanks hblanks, fuel, hfuel, ps, rest, h => by
    have hskip : skipGaps (chars (blanks ++ [']']) ++ rest) = .char ']' :: rest := by
      simpa using skipGaps_token hblanks (rfl : isGap ']' = false) rest
    exact skipItems_close h hskip
  | _, _, @SpellsItems.item x xs before after cs ts hbefore hafter hx hitems, fuel, hfuel, ps,
      rest, h => by
    have hxpos := hx.length_pos
    have htpos := hitems.length_pos
    simp only [List.length_append, List.length_cons] at hfuel
    obtain ⟨fuel, rfl⟩ : ∃ f, fuel = f + 1 := ⟨fuel - 1, by omega⟩
    have hvalue : skipValueWithin fuel (chars cs ++ (chars ts ++ rest)) = .ok (chars ts ++ rest) :=
      skipValueWithin_spells hx (by omega) (hitems.stops rest)
    have hskip : skipGaps (chars (before ++ ',' :: after ++ cs ++ ts) ++ rest) =
        .char ',' :: (chars after ++ (chars cs ++ (chars ts ++ rest))) := by
      simpa using skipGaps_token hbefore (rfl : isGap ',' = false)
        (chars after ++ (chars cs ++ (chars ts ++ rest)))
    rw [skipItems_comma h hskip]
    exact skipItems_spells hitems (by omega) ((skipValueWithin_blanks hafter fuel _).trans hvalue)

/-- Behind the first member, the other members and the brace are passed over. -/
theorem skipMembers_spells : ∀ {members : List (String × Json)} {ts : List Char},
    SpellsMembers members ts → ∀ {fuel : Nat}, ts.length ≤ fuel → ∀ {key : String}
      {ks : List Char} {ps rest : List Piece}, SpellsKey key ks →
        skipValueWithin fuel ps = .ok (chars ts ++ rest) →
          skipMembers (fuel + 1) (chars ks ++ ps) = .ok rest
  | _, _, @SpellsMembers.close blanks hblanks, fuel, hfuel, key, ks, ps, rest, hkey, h => by
    have hskip : skipGaps (chars (blanks ++ ['\x7d']) ++ rest) = .char '\x7d' :: rest := by
      simpa using skipGaps_token hblanks (rfl : isGap '\x7d' = false) rest
    exact skipMembers_close hkey h hskip
  | _, _, @SpellsMembers.member key' x members before ks' cs ts hbefore hkey' hx hmembers, fuel,
      hfuel, key, ks, ps, rest, hkey, h => by
    have hxpos := hx.length_pos
    have htpos := hmembers.length_pos
    simp only [List.length_append, List.length_cons] at hfuel
    obtain ⟨fuel, rfl⟩ : ∃ f, fuel = f + 1 := ⟨fuel - 1, by omega⟩
    have hvalue : skipValueWithin fuel (chars cs ++ (chars ts ++ rest)) = .ok (chars ts ++ rest) :=
      skipValueWithin_spells hx (by omega) (hmembers.stops rest)
    have hskip : skipGaps (chars (before ++ ',' :: ks' ++ cs ++ ts) ++ rest) =
        .char ',' :: (chars ks' ++ (chars cs ++ (chars ts ++ rest))) := by
      simpa using skipGaps_token hbefore (rfl : isGap ',' = false)
        (chars ks' ++ (chars cs ++ (chars ts ++ rest)))
    rw [skipMembers_comma hkey h hskip]
    exact skipMembers_spells hmembers (by omega) hkey' hvalue

end

end Fuel

/-- **A value that nobody looks at is passed over**, however it is
spelled. -/
theorem skipValue_spells (h : Spells x cs) (hblanks : Blanks blanks) (hrest : Stops rest) :
    skipValue (chars blanks ++ (chars cs ++ rest)) = .ok rest := by
  rw [skipValue, skipValueWithin_blanks hblanks]
  refine skipValueWithin_spells h ?_ hrest
  simp only [List.length_append, List.length_map]
  omega

end Json

end TrafficGate
