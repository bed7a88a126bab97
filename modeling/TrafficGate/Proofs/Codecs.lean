import TrafficGate.Association.Basic
import TrafficGate.Filter.Model
import TrafficGate.Project
import TrafficGate.Proofs.Json.Canonical
/-!
# What is written is read back

Every type that crosses the wire or is kept between runs is written in the
canonical form of its shape, and what it is written as means it again
(`Codec.Faithful`). From this alone it follows that decoding undoes encoding,
and that a record is still read when its members stand in another order and
members that it does not know stand among them (`codecs_roundTrip`).
-/

namespace TrafficGate

namespace Json

/-- The names of the fields of a record. -/
def Shape.fieldNames : Shape → List String
  | .record _ fields => fields.names
  | _ => []

namespace Codec

variable {α : Type} {c : Codec α}

/-- What is written is canonical, and means what was written. -/
structure Faithful (c : Codec α) : Prop where
  canonical : ∀ a, Canonical c.shape (c.encode a)
  ofCanonical : ∀ a, c.ofCanonical (c.encode a) = a

/-- Lists are written and read item by item. -/
theorem Faithful.listOf (h : c.Faithful) : c.listOf.Faithful where
  canonical xs := .list fun x hx => by
    obtain ⟨a, -, rfl⟩ := List.mem_map.1 hx
    exact h.canonical a
  ofCanonical xs := by
    have hid : c.ofCanonical ∘ c.encode = id := funext h.ofCanonical
    change (xs.map c.encode).map c.ofCanonical = xs
    rw [List.map_map, hid, List.map_id]

/-- A list is canonical where it may be absent. -/
theorem Faithful.optional_listOf (h : c.Faithful) (xs : List α) :
    Canonical (.optional c.listOf.shape) (c.listOf.encode xs) :=
  .present nofun (h.listOf.canonical xs)

/-- A list that may be absent is read back from its field. -/
theorem Faithful.bind_items? (h : c.Faithful) (xs? : Option (List α)) :
    ((xs?.map c.listOf.encode).bind items?).map (fun xs => xs.map c.ofCanonical) = xs? := by
  cases xs? with
  | none => rfl
  | some xs => exact congrArg some (h.listOf.ofCanonical xs)

/-- Decoding undoes encoding, of the text that is written and of the value
that is parsed from it. -/
structure RoundTrips (c : Codec α) : Prop where
  ofText : ∀ a, c.ofText (c.toText a) = .ok a
  ofBytes : ∀ a, c.ofBytes (Utf8.encode (c.toText a)) = .ok a
  ofValue : ∀ a, ∃ x, parse (Utf8.ofString (c.toText a)) = .ok x ∧ c.ofValue x = .ok a

/-- A record is read from every text of its members, in any order, with any
other members among them. -/
def Tolerant (c : Codec α) : Prop :=
  ∀ a, ∃ own, c.encode a = .object own ∧
    ∀ foreign members : List (String × Json), (∀ m ∈ foreign, m.1 ∉ c.shape.fieldNames) →
      members.Perm (own ++ foreign) →
        ∀ s : String, Document (.object members) s.toList → c.ofText s = .ok a

/-- What a codec has written, it reads as what it was. -/
theorem Faithful.reads (h : c.Faithful) (a : α) : c.Reads (c.encode a) a :=
  ⟨c.encode a, (h.canonical a).readAs, h.ofCanonical a⟩

/-- What it has written is a document. -/
theorem Faithful.document (h : c.Faithful) (a : α) :
    Document (c.encode a) (c.toText a).toList :=
  document_render Layout.blank_compact (h.canonical a).numberFree

/-- What is written, and was put in order since, is taken for what it was. -/
theorem Faithful.ofValue_ordered (h : c.Faithful) (a : α) :
    c.ofValue (c.encode a).ordered = .ok a := by
  rw [ofValue, (h.canonical a).check_ordered]
  exact congrArg Except.ok (h.ofCanonical a)

/-- **What is written is read back.** -/
theorem Faithful.roundTrips (h : c.Faithful) : c.RoundTrips where
  ofText a := (h.reads a).ofText (h.document a)
  ofBytes a := (h.reads a).ofBytes (h.document a)
  ofValue a :=
    ⟨_, parse_document (h.document a) (h.canonical a).numberFree, h.ofValue_ordered a⟩

/-- **A record is read in whatever order**, and with whatever else. -/
theorem Faithful.tolerant (h : c.Faithful) {name : String} {fields : Fields}
    (hshape : c.shape = .record name fields) : c.Tolerant := by
  intro a
  have hcanonical := h.canonical a
  have hmeans := h.ofCanonical a
  rw [hshape] at hcanonical
  generalize hx : c.encode a = x at hcanonical hmeans
  cases hcanonical with
  | @record _ _ own hnodup hown =>
    refine ⟨own, rfl, fun foreign members hforeign hperm s hs => ?_⟩
    rw [hshape] at hforeign
    have hread : c.Reads (.object members) a :=
      ⟨.object own, hshape ▸ hown.readAs_mixed hnodup hforeign hperm name, hmeans⟩
    exact hread.ofText hs

end Codec

/-- A text that may be absent. -/
theorem canonical_optional_text (s : String) : Canonical (.optional .text) (.text s) :=
  .present (by simp) (.text s)

end Json

open Json (Canonical CanonicalMembers canonical_optional_text)

/-! ## Words -/

/-- The types of filters come back from their names. -/
theorem FilterType.faithful_codec : FilterType.codec.Faithful where
  canonical t := .word (by cases t <;> decide)
  ofCanonical t := by cases t <;> rfl

/-- So do the kinds of projects. -/
theorem ProjectKind.faithful_codec : ProjectKind.codec.Faithful where
  canonical k := .word (by cases k <;> decide)
  ofCanonical k := by cases k <;> rfl

/-! ## Filters -/

theorem FilterRef.faithful_codec : FilterRef.codec.Faithful where
  canonical f := .record (by decide) (.present (by simp) (.text f.id) .done)
  ofCanonical _ := rfl

/-- Rules come back under any name that their record goes by. -/
theorem Rule.faithful_codecAs (recordName : String) : (Rule.codecAs recordName).Faithful where
  canonical r := .record (by decide) <|
    .present (by simp) (.text r.source) <|
    .last (by simp) canonical_optional_text r.description
  ofCanonical r := by
    simp [codecAs, Json.textAt, Json.textAt?, Json.get?, Json.text?]

theorem Rule.faithful_codec : Rule.codec.Faithful := Rule.faithful_codecAs "TrafficFilterRule"

theorem FilterInfo.faithful_codec : FilterInfo.codec.Faithful where
  canonical f := .record (by decide) <|
    .present (by simp) (.text f.id) <|
    .present (by simp) (.text f.name) <|
    .present (by simp [FilterType.codec]) (FilterType.faithful_codec.canonical f.type) <|
    .present (by simp) (.text f.region) <|
    .present (by simp) (.flag f.includeByDefault) <|
    .member? (by simp) canonical_optional_text
      (.present (by simp [Json.Codec.listOf]) (Rule.faithful_codec.listOf.canonical f.rules) .done)
      f.description
  ofCanonical f := by
    have hrules : (f.rules.map Rule.codec.encode).map Rule.codec.ofCanonical = f.rules :=
      Rule.faithful_codec.listOf.ofCanonical f.rules
    simp [codec, Json.textAt, Json.textAt?, Json.flagAt, Json.listAt?, Json.get?, Json.text?,
      Json.flag?, Json.items?, Json.Codec.listOf, FilterType.faithful_codec.ofCanonical,
      -List.map_map, hrules]

theorem FilterModel.faithful_codec : FilterModel.codec.Faithful where
  canonical m := by
    have hrules := (Rule.faithful_codecAs "TrafficFilterRuleModel").optional_listOf
    simp only [codec, List.append_assoc, List.cons_append, List.nil_append]
    exact .record (by decide) <|
      .member? (by simp) canonical_optional_text
        (.present (by simp) (.text m.name) <|
          .present (by simp [FilterType.codec]) (FilterType.faithful_codec.canonical m.type) <|
          .present (by simp) (.text m.region) <|
          .member? (by simp) canonical_optional_text
            (.present (by simp) (.flag m.includeByDefault) <|
              .last (by simp [Json.Codec.listOf]) hrules m.rules)
            m.description)
        m.id
  ofCanonical m := by
    simp [codec, Json.textAt, Json.textAt?, Json.flagAt, Json.listAt?, Json.get?, Json.text?,
      Json.flag?, FilterType.faithful_codec.ofCanonical, Rule.faithful_codec.bind_items?,
      -Option.map_bind]

/-! ## Projects and associations -/

theorem Project.faithful_codec (kind : ProjectKind) : (Project.codec kind).Faithful where
  canonical p := by
    have hfilters := FilterRef.faithful_codec.optional_listOf
    simp only [codec, List.append_assoc, List.cons_append, List.nil_append]
    exact .record (by cases kind <;> decide) <|
      .present (by simp) (.text p.id) <|
      .present (by simp) (.text p.name) <|
      .member? (by simp) canonical_optional_text
        (.member? (by simp) canonical_optional_text
          (.member? (by simp) canonical_optional_text
            (.last (by simp [Json.Codec.listOf]) hfilters p.filters)
            p.own)
          p.regionId)
        p.aliasName
  ofCanonical p := by
    -- no kind has a name for its own field that another field has
    cases kind
    all_goals
      simp [codec, Json.textAt, Json.textAt?, Json.listAt?, Json.get?, Json.text?,
        ProjectKind.ownField, FilterRef.faithful_codec.bind_items?, -Option.map_bind]

theorem Association.faithful_codec : Association.codec.Faithful where
  canonical a := .record (by decide) <|
    .member? (by simp) canonical_optional_text
      (.present (by simp) (.text a.projectId) <|
        .present (by simp) (.text a.projectType) <|
        .present (by simp) (.text a.filterId) .done)
      a.id
  ofCanonical a := by
    simp [codec, Json.textAt, Json.textAt?, Json.get?, Json.text?]

/-! ## All of them -/

/-- **Decoding undoes encoding for every type**, whatever its texts, its
absent fields and its lists: from the text that is written, and from the
value that is parsed from this text. A record is also read from every other
text of its members, in any order and with any members among them that it
does not know. -/
theorem codecs_roundTrip :
    FilterType.codec.RoundTrips ∧ ProjectKind.codec.RoundTrips ∧
    (FilterRef.codec.RoundTrips ∧ FilterRef.codec.Tolerant) ∧
    (∀ recordName, (Rule.codecAs recordName).RoundTrips ∧ (Rule.codecAs recordName).Tolerant) ∧
    (FilterInfo.codec.RoundTrips ∧ FilterInfo.codec.Tolerant) ∧
    (FilterModel.codec.RoundTrips ∧ FilterModel.codec.Tolerant) ∧
    (∀ kind, (Project.codec kind).RoundTrips ∧ (Project.codec kind).Tolerant) ∧
    (Association.codec.RoundTrips ∧ Association.codec.Tolerant) := by
  refine ⟨FilterType.faithful_codec.roundTrips, ProjectKind.faithful_codec.roundTrips,
    ⟨FilterRef.faithful_codec.roundTrips, FilterRef.faithful_codec.tolerant rfl⟩,
    fun recordName => ?_,
    ⟨FilterInfo.faithful_codec.roundTrips, FilterInfo.faithful_codec.tolerant rfl⟩,
    ⟨FilterModel.faithful_codec.roundTrips, FilterModel.faithful_codec.tolerant rfl⟩,
    fun kind => ?_,
    ⟨Association.faithful_codec.roundTrips, Association.faithful_codec.tolerant rfl⟩⟩
  · have hrule := Rule.faithful_codecAs recordName
    exact ⟨hrule.roundTrips, hrule.tolerant rfl⟩
  · have hproject := Project.faithful_codec kind
    exact ⟨hproject.roundTrips, hproject.tolerant rfl⟩

/-! ### A text with everything in it

A reference to a filter is spelled with blanks, escapes and surrogates, and
behind a member that is not known and holds a number out of all range. -/

namespace Odd

open Json (Blanks Digits Document Numeral Spells SpellsItems SpellsKey SpellsMembers SpellsText
  SpellsUnit blanks_nil)

def ref : FilterRef := ⟨"😀"⟩

/-- The member that is not known. -/
def foreign : String × Json := ("n", .list [.number (.natural 0), .null])

def text : String :=
  " \x7b\"n\":[-1.5e+999 , null],\"\\u0069d\" : \"\\ud83d\\ude00\"\x7d"

/-- A number with all that a number can have. -/
theorem numeral : Numeral ("-" ++ "1" ++ ".5" ++ "e+999").toList := by
  have hone : Digits ['1'] := ⟨by decide, List.forall_mem_singleton.2 rfl⟩
  have hfive : Digits ['5'] := ⟨by decide, List.forall_mem_singleton.2 rfl⟩
  have hnines : Digits ['9', '9', '9'] :=
    ⟨by decide, List.forall_mem_cons.2 ⟨rfl, List.forall_mem_cons.2
      ⟨rfl, List.forall_mem_singleton.2 rfl⟩⟩⟩
  have hscale : Json.Scale ('e' :: ['+'] ++ ['9', '9', '9']) :=
    .digits (by decide) (by decide) hnines
  have hnumeral : Numeral (['-'] ++ ['1'] ++ '.' :: ['5'] ++ ('e' :: ['+'] ++ ['9', '9', '9'])) :=
    .parts (by decide) (.digits (by decide) hone) (.digits hfive) hscale
  exact hnumeral

/-- The value of the unknown member, with the bracket. -/
theorem spells_foreign : Spells foreign.2 "[-1.5e+999 , null]".toList := by
  have hblank : Blanks [' '] := List.forall_mem_singleton.2 rfl
  have hitems : SpellsItems [.null]
      ([' '] ++ ',' :: [' '] ++ ['n', 'u', 'l', 'l'] ++ ([] ++ [']'])) :=
    .item hblank hblank .null (.close blanks_nil)
  exact .list blanks_nil (.number numeral) hitems

/-- The key with an escape in it, and blanks around its colon. -/
theorem spellsKey_id : SpellsKey "id" "\"\\u0069d\" : ".toList := by
  have hblank : Blanks [' '] := List.forall_mem_singleton.2 rfl
  have hunit : SpellsUnit (((0 * 16 + 0) * 16 + 6) * 16 + 9) ['0', '0', '6', '9'] :=
    .digits rfl rfl rfl rfl
  have htext : SpellsText "id".toList ('\\' :: 'u' :: ['0', '0', '6', '9'] ++ (['d'] ++ [])) :=
    .cons (.unit hunit) (.cons (.plain (by decide) (by decide) (by decide)) .nil)
  exact .quoted blanks_nil htext hblank hblank

/-- The text in two halves. -/
theorem spells_id : Spells (.text ref.id) "\"\\ud83d\\ude00\"".toList := by
  have hfirst : SpellsUnit (((13 * 16 + 8) * 16 + 3) * 16 + 13) ['d', '8', '3', 'd'] :=
    .digits rfl rfl rfl rfl
  have hsecond : SpellsUnit (((13 * 16 + 14) * 16 + 0) * 16 + 0) ['d', 'e', '0', '0'] :=
    .digits rfl rfl rfl rfl
  have htext : SpellsText ref.id.toList (('\\' :: 'u' :: ['d', '8', '3', 'd'] ++
      '\\' :: 'u' :: ['d', 'e', '0', '0']) ++ []) :=
    .cons (.pair hfirst hsecond rfl rfl rfl) .nil
  exact .text htext

theorem document_text : Document (.object [foreign, ("id", .text ref.id)]) text.toList := by
  have hkey : SpellsKey "n"
      ([] ++ '"' :: "n".toList.flatMap Json.escaped ++ '"' :: [] ++ ':' :: []) :=
    .quoted blanks_nil (Json.spellsText_escaped "n".toList) blanks_nil blanks_nil
  have hblank : Blanks [' '] := List.forall_mem_singleton.2 rfl
  have hobject := Spells.object hkey spells_foreign
    (.member blanks_nil spellsKey_id spells_id (.close blanks_nil))
  exact Document.padded hblank hobject blanks_nil

end Odd

/-- **Such a text is read**, as is the one that is written. -/
theorem codecs_roundTrip_odd :
    FilterRef.codec.ofText Odd.text = .ok Odd.ref ∧
      FilterRef.codec.ofText (FilterRef.codec.toText Odd.ref) = .ok Odd.ref := by
  obtain ⟨-, -, ⟨href, htolerant⟩, -⟩ := codecs_roundTrip
  obtain ⟨own, hown, hmixed⟩ := htolerant Odd.ref
  obtain rfl : [("id", .text Odd.ref.id)] = own := Json.object.inj hown
  refine ⟨hmixed [Odd.foreign] [Odd.foreign, ("id", .text Odd.ref.id)] (by decide)
    (List.Perm.swap _ _ _) Odd.text Odd.document_text, href.ofText Odd.ref⟩

end TrafficGate
