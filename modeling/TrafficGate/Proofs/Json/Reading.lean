import Mathlib.Data.List.Forall2
import TrafficGate.Json.Codec
import TrafficGate.Proofs.Json.Members
import TrafficGate.Proofs.Json.Skipping
import TrafficGate.Proofs.Text.Utf8
/-!
# Values are read back from their texts

`ReadAs shape x y` says that wherever `x` stands in a document, and however
it is spelled, it is read under the shape as `y`, and reading stops right
behind it. There is one lemma for each shape. For a record, the members may
stand in any order and others may stand among them, which are passed over
(`ReadAs.record`).
-/

namespace TrafficGate

namespace Json

open Utf8 (Piece)

/-- A reader that passes over blanks before it looks at anything. -/
theorem read_blanks {blanks : List Char} (h : Blanks blanks) (shape : Shape) (ps : List Piece) :
    read shape (chars blanks ++ ps) = read shape ps := by
  have hskip := skipGaps_blanks h ps
  cases shape with
  | text => simp only [read, readText, textAs, hskip]
  | flag => simp only [read, readFlag, hskip]
  | word names => simp only [read, readWord, hskip]
  | list item => simp only [read, readList, hskip]
  | optional inner => simp only [read, readOptional, hskip]
  | record name fields => simp only [read, readRecord, hskip]

/-! ## Single values -/

/-- Under a shape, one value is read as another, however it is spelled and
wherever it stands. -/
def ReadAs (shape : Shape) (x y : Json) : Prop :=
  ∀ cs, Spells x cs → ∀ rest, read shape (chars cs ++ rest) = .ok (y, rest)

section Single

variable {inner : Shape} {x y : Json}

/-- A quoted text begins with its quotation mark and ends with the other. -/
theorem chars_quoted (es : List Char) (rest : List Piece) :
    chars ('"' :: es ++ ['"']) ++ rest = .char '"' :: (chars es ++ .char '"' :: rest) := by
  simp

/-- A text is read as what it spells. -/
theorem readAs_text (s : String) : ReadAs .text (.text s) (.text s) := by
  rintro _ (_ | _ | _ | _ | @⟨_, es, htext⟩) rest
  rw [chars_quoted, read, readText, textAs, skipGaps_char rfl]
  change (quotedText _ >>= _) = _
  rw [quotedText_spells htext]
  rfl

/-- A flag is read as it is. -/
theorem readAs_flag (b : Bool) : ReadAs .flag (.flag b) (.flag b) := by
  intro cs hcs rest
  cases hcs with
  | on => rfl
  | off => rfl

/-- A word is read if it is one of the names. -/
theorem readAs_word {names : List String} {s : String} (h : s ∈ names) :
    ReadAs (.word names) (.text s) (.text s) := by
  rintro _ (_ | _ | _ | _ | @⟨_, es, htext⟩) rest
  have hword : knownWord names s = .ok (.text s) := if_pos (List.contains_iff_mem.2 h)
  rw [chars_quoted, read, readWord, skipGaps_char rfl]
  change (quotedText _ >>= _) = _
  rw [quotedText_spells htext]
  change (knownWord names s >>= _) = _
  rw [hword]
  rfl

/-- A null is read where a value may be absent. -/
theorem readAs_null (inner : Shape) : ReadAs (.optional inner) .null .null := by
  rintro _ ⟨⟩ rest
  rfl

/-- A value that is not null is read as if it were not optional. -/
theorem ReadAs.optional (h : ReadAs inner x y) (hnull : x ≠ .null) :
    ReadAs (.optional inner) x y := by
  intro cs hcs rest
  have hread := h cs hcs rest
  obtain ⟨c, tail, rfl, hbegins⟩ := hcs.begins
  have hn : c ≠ 'n' := fun hn => hnull (hbegins.null hn)
  simp only [List.map_cons, List.cons_append] at hread ⊢
  rw [read, readOptional, skipGaps_char hbegins.gap]
  split
  case h_1 heq => exact absurd (Piece.char.inj (List.cons.inj heq).1) hn
  case h_2 => exact hread

/-- A text is read where it may be absent. -/
theorem readAs_optional_text (s : String) : ReadAs (.optional .text) (.text s) (.text s) :=
  (readAs_text s).optional (by simp)

end Single

/-! ## Lists -/

section List

variable {item : Shape} {xs ys : List Json} {ts : List Char}

/-- The first item begins behind the blanks. -/
theorem nextItem_first {c : Char} {ps left : List Piece} (h : skipGaps ps = .char c :: left)
    (hcomma : c ≠ ',') (hbracket : c ≠ ']') : nextItem true ps = .ok (true, .char c :: left) := by
  unfold nextItem
  rw [h]
  split
  case h_1 heq => cases heq
  case h_2 heq => exact absurd (Piece.char.inj (List.cons.inj heq).1) hbracket
  case h_3 heq => exact absurd (Piece.char.inj (List.cons.inj heq).1) hcomma
  case h_4 => rfl

/-- A further one begins behind a comma and the blanks. -/
theorem nextItem_further {c : Char} {ps mid left : List Piece}
    (hcomma : skipGaps ps = .char ',' :: mid) (h : skipGaps mid = .char c :: left)
    (hbracket : c ≠ ']') : nextItem false ps = .ok (true, .char c :: left) := by
  unfold nextItem
  simp only [hcomma, Bool.false_eq_true, if_false, h]
  split
  case h_1 heq => cases heq
  case h_2 heq => exact absurd (Piece.char.inj (List.cons.inj heq).1) hbracket
  case h_3 => rfl

/-- A bracket ends the items, whether one has been read or none. -/
theorem nextItem_end {ps rest : List Piece} (h : skipGaps ps = .char ']' :: rest) (first : Bool) :
    nextItem first ps = .ok (false, .char ']' :: rest) := by
  simp only [nextItem, h]

/-- The items are the next one and those behind it. -/
theorem readItems_next {reader : Reader Json} {fuel : Nat} {first : Bool}
    {ps left rest rest' : List Piece} {x : Json} (hnext : nextItem first ps = .ok (true, left))
    (hitem : reader left = .ok (x, rest))
    (htail : readItems reader fuel false rest = .ok (xs, rest')) :
    readItems reader (fuel + 1) first ps = .ok (x :: xs, rest') := by
  simp only [readItems, hnext, hitem, htail, bind, Except.bind, if_true]

/-- There are no items before the bracket. -/
theorem readItems_end {reader : Reader Json} {fuel : Nat} {first : Bool} {ps rest : List Piece}
    (hnext : nextItem first ps = .ok (false, .char ']' :: rest)) :
    readItems reader (fuel + 1) first ps = .ok ([], rest) := by
  simp only [readItems, hnext, bind, Except.bind, Bool.false_eq_true, if_false,
    List.drop_succ_cons, List.drop_zero]

/-- **The items after the first** are read one by one, up to the bracket. -/
theorem readItems_spells (h : List.Forall₂ (ReadAs item) xs ys) (hts : SpellsItems xs ts)
    {fuel : Nat} (hfuel : xs.length < fuel) (rest : List Piece) :
    readItems (read item) fuel false (chars ts ++ rest) = .ok (ys, rest) := by
  induction h generalizing fuel ts with
  | nil =>
    obtain ⟨fuel, rfl⟩ := Nat.exists_eq_succ_of_ne_zero (Nat.ne_zero_of_lt hfuel)
    obtain ⟨hblanks⟩ := hts
    refine readItems_end (nextItem_end ?_ false)
    simpa using skipGaps_token hblanks (rfl : isGap ']' = false) rest
  | @cons x y xs ys hxy hrest ih =>
    obtain ⟨fuel, rfl⟩ := Nat.exists_eq_succ_of_ne_zero (Nat.ne_zero_of_lt hfuel)
    cases hts with
    | @item _ _ before after cs ts hbefore hafter hx hitems =>
      have htail := ih hitems (Nat.lt_of_succ_lt_succ hfuel)
      have hread := hxy cs hx (chars ts ++ rest)
      obtain ⟨c, left, hleft, hbegins, hskip⟩ := skipGaps_spells hx hafter (chars ts ++ rest)
      have hcomma : skipGaps (chars (before ++ ',' :: after ++ cs ++ ts) ++ rest) =
          .char ',' :: (chars after ++ (chars cs ++ (chars ts ++ rest))) := by
        simpa using skipGaps_token hbefore (rfl : isGap ',' = false)
          (chars after ++ (chars cs ++ (chars ts ++ rest)))
      rw [hleft] at hread
      exact readItems_next (nextItem_further hcomma hskip hbegins.bracket) hread htail

/-- A list has fewer items than characters, so the fuel is enough for them. -/
theorem SpellsItems.length_lt : ∀ {xs : List Json} {ts : List Char}, SpellsItems xs ts →
    xs.length < ts.length
  | _, _, .close _ => by simp
  | _, _, .item _ _ _ hitems => by
    have hlength := hitems.length_lt
    simp only [List.length_append, List.length_cons]
    omega

/-- A list is read as its items, with the fuel that its length gives. -/
theorem read_list {ps rest : List Piece}
    (h : readItems (read item) (ps.length + 1) true ps = .ok (ys, rest)) :
    read (.list item) (.char '[' :: ps) = .ok (.list ys, rest) := by
  have hbracket : isGap '[' = false := rfl
  simp only [read, readList, skipGaps_char hbracket, h, bind, Except.bind]

/-- **A list is read item by item.** -/
theorem ReadAs.list (h : List.Forall₂ (ReadAs item) xs ys) :
    ReadAs (.list item) (.list xs) (.list ys) := by
  intro _ hcs rest
  cases hcs with
  | @nil blanks hblanks =>
    obtain ⟨⟩ := h
    have happend : chars ('[' :: blanks ++ [']']) ++ rest =
        .char '[' :: (chars blanks ++ .char ']' :: rest) := by simp
    rw [happend]
    exact read_list (readItems_end (nextItem_end (skipGaps_token hblanks rfl rest) true))
  | @list x xs blanks cs ts hblanks hx hitems =>
    obtain _ | ⟨hxy, hrest⟩ := h
    have hread := hxy cs hx (chars ts ++ rest)
    obtain ⟨c, left, hleft, hbegins, hskip⟩ := skipGaps_spells hx hblanks (chars ts ++ rest)
    have hnext := nextItem_first hskip hbegins.comma hbegins.bracket
    have happend : chars ('[' :: blanks ++ cs ++ ts) ++ rest =
        .char '[' :: (chars blanks ++ (chars cs ++ (chars ts ++ rest))) := by simp
    have hfuel : xs.length < (chars blanks ++ (chars cs ++ (chars ts ++ rest))).length := by
      have hlength := hitems.length_lt
      simp only [List.length_append, List.length_map]
      omega
    rw [hleft] at hread
    rw [happend]
    exact read_list (readItems_next hnext hread (readItems_spells hrest hitems hfuel rest))

end List

/-! ## Records -/

/-- The slots of a record are those of its fields. -/
theorem slotsOf_readSlots : ∀ fields : Fields, SlotsOf read fields (readSlots fields)
  | .done => .done
  | .field _ _ _ rest => .field (slotsOf_readSlots rest)

section Record

variable {fields : Fields} {members found : List (String × Json)}

/-! ### Keys -/

section Key

variable {key : String} {ks : List Char}

/-- The first key is read, and then its colon. -/
theorem nextKey_first (h : SpellsKey key ks) (ps : List Piece) :
    ∃ left after, nextKey true (chars ks ++ ps) = .ok (some key, left) ∧ Blanks after ∧
      colon left = .ok (chars after ++ ps) := by
  obtain ⟨es, behind, after, htext, hbehind, hafter, hskip⟩ := skipGaps_key h ps
  refine ⟨_, after, ?_, hafter, colon_blanks hbehind _⟩
  simp only [nextKey, hskip, if_true, nextKey.key, quotedText_spells htext, bind, Except.bind]

/-- A further one stands behind a comma. -/
theorem nextKey_further {before : List Char} (hbefore : Blanks before) (h : SpellsKey key ks)
    (ps : List Piece) :
    ∃ left after, nextKey false (chars before ++ .char ',' :: (chars ks ++ ps)) =
        .ok (some key, left) ∧ Blanks after ∧ colon left = .ok (chars after ++ ps) := by
  obtain ⟨es, behind, after, htext, hbehind, hafter, hskip⟩ := skipGaps_key h ps
  have hcomma : isGap ',' = false := rfl
  refine ⟨_, after, ?_, hafter, colon_blanks hbehind _⟩
  simp only [nextKey, skipGaps_token hbefore hcomma, hskip, Bool.false_eq_true, if_false,
    nextKey.key, quotedText_spells htext, bind, Except.bind]

/-- A brace ends the members. -/
theorem nextKey_end {blanks : List Char} (hblanks : Blanks blanks) (first : Bool)
    (rest : List Piece) :
    nextKey first (chars blanks ++ .char '\x7d' :: rest) = .ok (none, rest) := by
  have hbrace : isGap '\x7d' = false := rfl
  simp only [nextKey, skipGaps_token hblanks hbrace]

end Key

/-! ### Members -/

/-- Before the brace, the members are those that were found. -/
theorem readMembers_end {slots : List (Slot (Reader Json))} {fuel : Nat} {first : Bool}
    {ps rest : List Piece} (hkey : nextKey first ps = .ok (none, rest)) :
    readMembers slots (fuel + 1) first found ps = .ok (found, rest) := by
  simp only [readMembers, hkey, bind, Except.bind]

/-- A member of a record and how it is read. -/
structure MemberAs (fields : Fields) (m f : String × Json) : Prop where
  key : f.1 = m.1
  readAs : ∃ shape, fields.shape? m.1 = some shape ∧ ReadAs shape m.2 f.2

/-- The members of an object and what a record finds among them. -/
inductive MembersAs (fields : Fields) : List (String × Json) → List (String × Json) → Prop
  | nil : MembersAs fields [] []
  | known {m f : String × Json} {members found : List (String × Json)} :
      MemberAs fields m f → MembersAs fields members found →
      MembersAs fields (m :: members) (f :: found)
  | foreign {m : String × Json} {members found : List (String × Json)} :
      fields.shape? m.1 = none → MembersAs fields members found →
      MembersAs fields (m :: members) found

section Member

variable {key : String} {x : Json} {cs : List Char} {fuel : Nat} {first : Bool}
  {ps left rest : List Piece} {after : List Char}

/-- A known member is kept, -/
theorem readMembers_known {f : String × Json} (hkey : nextKey first ps = .ok (some key, left))
    (hafter : Blanks after) (hcolon : colon left = .ok (chars after ++ (chars cs ++ rest)))
    (hx : Spells x cs) (h : MemberAs fields (key, x) f) (hfresh : lookup? f.1 found = none) :
    readMembers (readSlots fields) (fuel + 1) first found ps =
      readMembers (readSlots fields) fuel false (found ++ [f]) rest := by
  obtain ⟨k, y⟩ := f
  obtain ⟨rfl, shape, hshape, hread⟩ := h
  obtain ⟨slot, hslot, htake⟩ := (slotsOf_readSlots fields).find? hshape
  have hvalue : slot.take (chars after ++ (chars cs ++ rest)) = .ok (y, rest) := by
    rw [htake, read_blanks hafter]
    exact hread cs hx rest
  simp only [readMembers, hkey, hslot, hfresh, hcolon, hvalue, bind, Except.bind,
    Option.isSome_none, Bool.false_eq_true, if_false]

/-- and any other is passed over. -/
theorem readMembers_foreign (hkey : nextKey first ps = .ok (some key, left))
    (hafter : Blanks after) (hcolon : colon left = .ok (chars after ++ (chars cs ++ rest)))
    (hx : Spells x cs) (h : fields.shape? key = none) (hrest : Stops rest) :
    readMembers (readSlots fields) (fuel + 1) first found ps =
      readMembers (readSlots fields) fuel false found rest := by
  have hslot := (slotsOf_readSlots fields).find?_eq_none h
  simp only [readMembers, hkey, hslot, hcolon, skipValue_spells hx hafter hrest, bind,
    Except.bind]

/-- **One member of a record**: what is found of the others is put behind
what was found with it. -/
theorem readMembers_member {before : List (String × Json)}
    (h : MembersAs fields ((key, x) :: members) found)
    (hnodup : ((before ++ found).map Prod.fst).Nodup)
    (hkey : nextKey first ps = .ok (some key, left)) (hafter : Blanks after)
    (hcolon : colon left = .ok (chars after ++ (chars cs ++ rest))) (hx : Spells x cs)
    (hrest : Stops rest) :
    ∃ before' found', before ++ found = before' ++ found' ∧ MembersAs fields members found' ∧
      readMembers (readSlots fields) (fuel + 1) first before ps =
        readMembers (readSlots fields) fuel false before' rest := by
  cases h with
  | @known _ f _ found hmf hmembers =>
    have hfresh : lookup? f.1 before = none := by
      rw [lookup?_eq_none_iff]
      intro hmem
      rw [List.map_append, List.nodup_append] at hnodup
      exact hnodup.2.2 _ hmem _ (List.mem_map_of_mem List.mem_cons_self) rfl
    exact ⟨before ++ [f], found, List.append_cons before f found, hmembers,
      readMembers_known hkey hafter hcolon hx hmf hfresh⟩
  | foreign hforeign hmembers =>
    exact ⟨before, found, rfl, hmembers,
      readMembers_foreign hkey hafter hcolon hx hforeign hrest⟩

end Member

/-- **The members after the first** are read one by one, up to the brace. -/
theorem readMembers_spells : ∀ {members : List (String × Json)} {ts : List Char},
    SpellsMembers members ts → ∀ {before found : List (String × Json)},
      MembersAs fields members found → ((before ++ found).map Prod.fst).Nodup →
        ∀ {fuel : Nat}, members.length < fuel → ∀ rest : List Piece,
          readMembers (readSlots fields) fuel false before (chars ts ++ rest) =
            .ok (before ++ found, rest)
  | _, _, @SpellsMembers.close blanks hblanks, before, _, .nil, _, fuel + 1, _, rest => by
    have happend : chars (blanks ++ ['\x7d']) ++ rest =
        chars blanks ++ .char '\x7d' :: rest := by simp
    rw [happend, List.append_nil]
    exact readMembers_end (nextKey_end hblanks false rest)
  | _, _, @SpellsMembers.member key x members gap ks cs ts hgap hkey hx hmembers, before, found,
      h, hnodup, fuel + 1, hfuel, rest => by
    have happend : chars (gap ++ ',' :: ks ++ cs ++ ts) ++ rest =
        chars gap ++ .char ',' :: (chars ks ++ (chars cs ++ (chars ts ++ rest))) := by simp
    obtain ⟨left, after, hnext, hafter, hcolon⟩ :=
      nextKey_further hgap hkey (chars cs ++ (chars ts ++ rest))
    obtain ⟨before', found', hsplit, h', hread⟩ :=
      readMembers_member h hnodup hnext hafter hcolon hx (hmembers.stops rest)
    rw [happend, hread, hsplit]
    exact readMembers_spells hmembers h' (hsplit ▸ hnodup) (Nat.lt_of_succ_lt_succ hfuel) rest

/-- A record has fewer members than characters. -/
theorem SpellsMembers.length_lt : ∀ {members : List (String × Json)} {ts : List Char},
    SpellsMembers members ts → members.length < ts.length
  | _, _, .close _ => by simp
  | _, _, .member _ _ _ hmembers => by
    have hlength := hmembers.length_lt
    simp only [List.length_append, List.length_cons]
    omega

/-- A record is read as what its members are put together to. -/
theorem read_record {name : String} {ps rest : List Piece} {out : List (String × Json)}
    (hread : readMembers (readSlots fields) (ps.length + 1) true [] ps = .ok (found, rest))
    (hassemble : assemble found (readSlots fields) = .ok out) :
    read (.record name fields) (.char '\x7b' :: ps) = .ok (.object out, rest) := by
  have hbrace : isGap '\x7b' = false := rfl
  simp only [read, readRecord, skipGaps_char hbrace, hread, hassemble, bind, Except.bind]

/-- **A record is read member by member**, in whatever order they stand. -/
theorem ReadAs.record_of_assemble {name : String} {out : List (String × Json)}
    (h : MembersAs fields members found) (hnodup : (found.map Prod.fst).Nodup)
    (hassemble : assemble found (readSlots fields) = .ok out) :
    ReadAs (.record name fields) (.object members) (.object out) := by
  intro _ hcs rest
  cases hcs with
  | @empty blanks hblanks =>
    cases h with
    | nil =>
      have happend : chars ('\x7b' :: blanks ++ ['\x7d']) ++ rest =
          .char '\x7b' :: (chars blanks ++ .char '\x7d' :: rest) := by simp
      rw [happend]
      exact read_record (readMembers_end (nextKey_end hblanks true rest)) hassemble
  | @object key x members ks cs ts hkey hx hmembers =>
    have happend : chars ('\x7b' :: ks ++ cs ++ ts) ++ rest =
        .char '\x7b' :: (chars ks ++ (chars cs ++ (chars ts ++ rest))) := by simp
    obtain ⟨left, after, hnext, hafter, hcolon⟩ :=
      nextKey_first hkey (chars cs ++ (chars ts ++ rest))
    have hnodup : (([] ++ found).map Prod.fst).Nodup := hnodup
    obtain ⟨before', found', hsplit, h', hread⟩ :=
      readMembers_member h hnodup hnext hafter hcolon hx (hmembers.stops rest)
    rw [happend]
    refine read_record ?_ hassemble
    rw [hread, ← List.nil_append found, hsplit]
    refine readMembers_spells hmembers h' (hsplit ▸ hnodup) ?_ rest
    have hlength := hmembers.length_lt
    simp only [List.length_append, List.length_map]
    omega

/-- A member that is left as it is written. -/
theorem memberAs_of_readAs {key : String} {shape : Shape} {x : Json}
    (hshape : fields.shape? key = some shape) (h : ReadAs shape x x) :
    MemberAs fields (key, x) (key, x) :=
  ⟨rfl, shape, hshape, h⟩

/-- Members that are all left as they are written. -/
theorem membersAs_self (h : ∀ m ∈ members, MemberAs fields m m) :
    MembersAs fields members members := by
  induction members with
  | nil => exact .nil
  | cons m members ih =>
    obtain ⟨hm, hmembers⟩ := List.forall_mem_cons.1 h
    exact .known hm (ih hmembers)

/-- Every key that is found is the name of a field. -/
theorem shape?_ne_none_of_mem (h : MembersAs fields members found) {key : String}
    (hmem : key ∈ found.map Prod.fst) : fields.shape? key ≠ none := by
  induction h with
  | nil => cases hmem
  | known hmf _ ih =>
    rcases List.mem_cons.1 hmem with rfl | hmem
    · obtain ⟨hkey, shape, hshape, -⟩ := hmf
      rw [hkey, hshape]
      exact Option.some_ne_none shape
    · exact ih hmem
  | foreign _ _ ih => exact ih hmem

/-- **A record with nothing missing** is read, and has under each key what
was there and is not null. -/
theorem ReadAs.record (name : String) (h : MembersAs fields members found)
    (hnodup : (found.map Prod.fst).Nodup)
    (hrequired : ∀ key ∈ fields.required, lookup? key found ≠ none) :
    ∃ out, ReadAs (.record name fields) (.object members) (.object out) ∧
      ∀ key, lookup? key out = present? key found := by
  obtain ⟨out, hassemble, hlookup⟩ := lookup?_assemble fun slot hslot hneeded =>
    hrequired slot.name ((slotsOf_readSlots fields).mem_required hslot hneeded)
  refine ⟨out, .record_of_assemble h hnodup hassemble, fun key => ?_⟩
  rw [hlookup]
  split
  case isTrue => rfl
  case isFalse hname =>
    have habsent : lookup? key found = none := by
      rw [lookup?_eq_none_iff]
      rw [(slotsOf_readSlots fields).names, ← Fields.shape?_eq_none_iff] at hname
      exact fun hmem => shape?_ne_none_of_mem h hmem hname
    rw [present?, habsent]
    rfl

end Record

/-! ## Documents -/

/-- A codec reads a value as an element of its type. -/
def Codec.Reads {α : Type} (c : Codec α) (x : Json) (a : α) : Prop :=
  ∃ y, ReadAs c.shape x y ∧ c.ofCanonical y = a

section Document

variable {α : Type} {c : Codec α} {x : Json} {a : α} {s : String}

/-- **A document is read**, however it is spelled. -/
theorem Codec.Reads.ofText (h : c.Reads x a) (hs : Document x s.toList) : c.ofText s = .ok a := by
  obtain ⟨y, hread, rfl⟩ := h
  generalize hcs : s.toList = cs at hs
  obtain @⟨before, cs, after, hbefore, hx, hafter⟩ := hs
  have hpieces : Utf8.ofString s = chars before ++ (chars cs ++ (chars after ++ [])) := by
    simp [Utf8.ofString, hcs]
  have hend : skipGaps (chars after ++ []) = [] := skipGaps_blanks hafter []
  have hdecode : Json.decode c.shape (Utf8.ofString s) = .ok y := by
    rw [hpieces, Json.decode, read_blanks hbefore, hread cs hx]
    simp only [bind, Except.bind, hend]
  rw [Codec.ofText, Codec.decode, hdecode]
  rfl

/-- What is read from a text is read from its bytes. -/
theorem Codec.Reads.ofBytes (h : c.Reads x a) (hs : Document x s.toList) :
    c.ofBytes (Utf8.encode s) = .ok a := by
  rw [Codec.ofBytes, Utf8.pieces_encode]
  exact h.ofText hs

end Document

end Json

end TrafficGate
