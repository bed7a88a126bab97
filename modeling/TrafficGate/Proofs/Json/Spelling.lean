import TrafficGate.Json.Printer
import TrafficGate.Json.Scan
/-!
# How values are spelled

`Spells x cs` says that the characters `cs` are a JSON text of the value
`x`. A value has many spellings: blanks may stand between any two tokens,
a character may stand as itself or as one of its escapes, and the members
of an object stand in the order of the value. What a printer writes is one
of them (`spells_render`), so what is shown of all spellings holds of it.

A number is spelled by any numeral. What a numeral is worth is not said
here: nothing that is read under a shape holds a number, and a numeral
that is passed over need not be worth anything.
-/

namespace TrafficGate

namespace Json

/-- Characters that mean nothing between tokens. -/
abbrev Blanks (cs : List Char) : Prop := ∀ c ∈ cs, isGap c = true

theorem blanks_nil : Blanks [] := List.forall_mem_nil _

/-! ## Texts -/

/-- Four digits to base sixteen and what they are worth. -/
inductive SpellsUnit : Nat → List Char → Prop
  | digits {a b c d : Char} {p q r s : Nat} :
      Text.hexValue? a = some p → Text.hexValue? b = some q → Text.hexValue? c = some r →
      Text.hexValue? d = some s →
      SpellsUnit (((p * 16 + q) * 16 + r) * 16 + s) [a, b, c, d]

/-- How a character may stand inside quotes. -/
inductive SpellsChar (c : Char) : List Char → Prop
  /-- As itself, unless it means something there. -/
  | plain : c ≠ '"' → c ≠ '\\' → ¬ c.toNat < 0x20 → SpellsChar c [c]
  /-- As an escape of one letter. -/
  | short {e : Char} : shortEscape? e = some c → SpellsChar c ['\\', e]
  /-- As its code point. -/
  | unit {ds : List Char} : SpellsUnit c.toNat ds → SpellsChar c ('\\' :: 'u' :: ds)
  /-- As two surrogates. -/
  | pair {first second : Nat} {ds es : List Char} :
      SpellsUnit first ds → SpellsUnit second es → isLeading first = true →
      isTrailing second = true →
      c.toNat = (first - 0xD800) * 0x400 + (second - 0xDC00) + 0x10000 →
      SpellsChar c ('\\' :: 'u' :: ds ++ '\\' :: 'u' :: es)

/-- How characters may stand inside quotes, one by one. -/
inductive SpellsText : List Char → List Char → Prop
  | nil : SpellsText [] []
  | cons {c : Char} {cs ds es : List Char} :
      SpellsChar c ds → SpellsText cs es → SpellsText (c :: cs) (ds ++ es)

/-! ## Numerals -/

/-- Decimal digits, at least one. -/
structure Digits (cs : List Char) : Prop where
  ne_nil : cs ≠ []
  digit : ∀ c ∈ cs, (Text.decimalValue? c).isSome = true

/-- The digits in front of a point. More than one do not begin with zero. -/
inductive Whole : List Char → Prop
  | zero : Whole ['0']
  | digits {c : Char} {cs : List Char} : c ≠ '0' → Digits (c :: cs) → Whole (c :: cs)

/-- The digits behind a point, if there is one. -/
inductive Fraction : List Char → Prop
  | none : Fraction []
  | digits {cs : List Char} : Digits cs → Fraction ('.' :: cs)

/-- An exponent, if there is one. -/
inductive Scale : List Char → Prop
  | none : Scale []
  | digits {e : Char} {sign cs : List Char} :
      e ∈ ['e', 'E'] → sign ∈ [[], ['+'], ['-']] → Digits cs → Scale (e :: sign ++ cs)

/-- A number as it is written. -/
inductive Numeral : List Char → Prop
  | parts {sign whole fraction scale : List Char} :
      sign ∈ [[], ['-']] → Whole whole → Fraction fraction → Scale scale →
      Numeral (sign ++ whole ++ fraction ++ scale)

/-! ## Values -/

/-- A key with its colon and the blanks around it. -/
inductive SpellsKey (key : String) : List Char → Prop
  | quoted {before behind after es : List Char} :
      Blanks before → SpellsText key.toList es → Blanks behind → Blanks after →
      SpellsKey key (before ++ '"' :: es ++ '"' :: behind ++ ':' :: after)

mutual

/-- How a value may be spelled. -/
inductive Spells : Json → List Char → Prop
  | null : Spells .null ['n', 'u', 'l', 'l']
  | on : Spells (.flag true) ['t', 'r', 'u', 'e']
  | off : Spells (.flag false) ['f', 'a', 'l', 's', 'e']
  | number {n : Number} {cs : List Char} : Numeral cs → Spells (.number n) cs
  | text {s : String} {es : List Char} :
      SpellsText s.toList es → Spells (.text s) ('"' :: es ++ ['"'])
  | nil {blanks : List Char} : Blanks blanks → Spells (.list []) ('[' :: blanks ++ [']'])
  | list {x : Json} {xs : List Json} {blanks cs rest : List Char} :
      Blanks blanks → Spells x cs → SpellsItems xs rest →
      Spells (.list (x :: xs)) ('[' :: blanks ++ cs ++ rest)
  | empty {blanks : List Char} :
      Blanks blanks → Spells (.object []) ('\x7b' :: blanks ++ ['\x7d'])
  | object {key : String} {x : Json} {members : List (String × Json)} {ks cs rest : List Char} :
      SpellsKey key ks → Spells x cs → SpellsMembers members rest →
      Spells (.object ((key, x) :: members)) ('\x7b' :: ks ++ cs ++ rest)

/-- What stands behind the first item of a list, up to and with the
bracket. -/
inductive SpellsItems : List Json → List Char → Prop
  | close {blanks : List Char} : Blanks blanks → SpellsItems [] (blanks ++ [']'])
  | item {x : Json} {xs : List Json} {before after cs rest : List Char} :
      Blanks before → Blanks after → Spells x cs → SpellsItems xs rest →
      SpellsItems (x :: xs) (before ++ ',' :: after ++ cs ++ rest)

/-- What stands behind the first member of an object, up to and with the
brace. -/
inductive SpellsMembers : List (String × Json) → List Char → Prop
  | close {blanks : List Char} : Blanks blanks → SpellsMembers [] (blanks ++ ['\x7d'])
  | member {key : String} {x : Json} {members : List (String × Json)}
      {before ks cs rest : List Char} :
      Blanks before → SpellsKey key ks → Spells x cs → SpellsMembers members rest →
      SpellsMembers ((key, x) :: members) (before ++ ',' :: ks ++ cs ++ rest)

end

/-- How a document may be spelled that holds a value. -/
inductive Document (x : Json) : List Char → Prop
  | padded {before cs after : List Char} :
      Blanks before → Spells x cs → Blanks after → Document x (before ++ cs ++ after)

/-- What spells a value is a document of it. -/
theorem Spells.document {x : Json} {cs : List Char} (h : Spells x cs) : Document x cs := by
  have hpadded := Document.padded blanks_nil h blanks_nil
  simpa using hpadded

/-! ## What a printer writes -/

section Printed

/-- The digits of a number are read back. -/
theorem hexValue_hexDigit {n : Nat} (hn : n < 16) :
    Text.hexValue? (Text.hexDigit n) = some n := by
  decide +revert

/-- A character below the blank takes two digits. -/
theorem spellsUnit_control {n : Nat} (hn : n < 0x20) :
    SpellsUnit n ['0', '0', Text.hexDigit (n / 16), Text.hexDigit (n % 16)] := by
  have hzero : Text.hexValue? '0' = some 0 := rfl
  have hdigits := SpellsUnit.digits hzero hzero
    (hexValue_hexDigit (show n / 16 < 16 by omega)) (hexValue_hexDigit (show n % 16 < 16 by omega))
  have hvalue : ((0 * 16 + 0) * 16 + n / 16) * 16 + n % 16 = n := by omega
  rwa [hvalue] at hdigits

/-- An escaped character spells the character. -/
theorem spellsChar_escaped (c : Char) : SpellsChar c (escaped c) := by
  unfold escaped
  split
  case isTrue hc => exact .short (by rw [hc]; rfl)
  split
  case isTrue hc => exact .short (by rw [hc]; rfl)
  split
  case isTrue hc => exact .short (by rw [hc]; rfl)
  split
  case isTrue hc => exact .short (by rw [hc]; rfl)
  split
  case isTrue hc => exact .short (by rw [hc]; rfl)
  split
  case isTrue hc => exact .short (by rw [hc]; rfl)
  split
  case isTrue hc => exact .short (by rw [hc]; rfl)
  split
  case isTrue hc => exact .unit (spellsUnit_control hc)
  case isFalse hquote hslash _ _ _ _ _ hcontrol => exact .plain hquote hslash hcontrol

/-- Escaped characters spell the text. -/
theorem spellsText_escaped (cs : List Char) : SpellsText cs (cs.flatMap escaped) := by
  induction cs with
  | nil => exact .nil
  | cons c cs ih => exact .cons (spellsChar_escaped c) ih

/-- A layout that adds nothing but blanks. -/
structure Layout.Blank (layout : Layout) : Prop where
  gap : ∀ level, Blanks (layout.gap level)
  colon : ∃ blanks, layout.colon = ':' :: blanks ∧ Blanks blanks

theorem Layout.blank_compact : Layout.compact.Blank where
  gap _ := blanks_nil
  colon := ⟨[], rfl, blanks_nil⟩

theorem Layout.blank_indented : Layout.indented.Blank where
  gap := by
    intro level c hc
    simp only [Layout.indented, List.mem_cons, List.mem_replicate] at hc
    rcases hc with rfl | ⟨-, rfl⟩
    · rfl
    · rfl
  colon := ⟨[' '], rfl, List.forall_mem_singleton.2 rfl⟩

/-- A value without a number anywhere in it. -/
inductive NumberFree : Json → Prop
  | null : NumberFree .null
  | flag (b : Bool) : NumberFree (.flag b)
  | text (s : String) : NumberFree (.text s)
  | list {items : List Json} : (∀ x ∈ items, NumberFree x) → NumberFree (.list items)
  | object {members : List (String × Json)} :
      (∀ m ∈ members, NumberFree m.2) → NumberFree (.object members)

variable {layout : Layout} (hlayout : layout.Blank)
include hlayout

/-- A key is printed as it is spelled. -/
theorem spellsKey_quoted (key : String) (level : Nat) :
    SpellsKey key (layout.gap level ++ quoted key ++ layout.colon) := by
  obtain ⟨blanks, hcolon, hblanks⟩ := hlayout.colon
  have hquoted := SpellsKey.quoted (hlayout.gap level) (spellsText_escaped key.toList)
    blanks_nil hblanks
  simpa [quoted, hcolon] using hquoted

/-- Items are printed as they are spelled. -/
theorem spellsItems_renderItems {items : List Json} (level : Nat)
    (h : ∀ x ∈ items, ∀ level, Spells x (render layout level x)) :
    SpellsItems items (renderItems layout level items ++ layout.gap level ++ [']']) := by
  induction items with
  | nil => exact .close (hlayout.gap level)
  | cons x rest ih =>
    obtain ⟨hx, hrest⟩ := List.forall_mem_cons.1 h
    have hitem := SpellsItems.item blanks_nil (hlayout.gap (level + 1))
      (hx (level + 1)) (ih hrest)
    simpa [renderItems] using hitem

/-- Members are printed as they are spelled. -/
theorem spellsMembers_renderMembers {members : List (String × Json)} (level : Nat)
    (h : ∀ m ∈ members, ∀ level, Spells m.2 (render layout level m.2)) :
    SpellsMembers members
      (renderMembers layout level members ++ layout.gap level ++ ['\x7d']) := by
  induction members with
  | nil => exact .close (hlayout.gap level)
  | cons m rest ih =>
    obtain ⟨hm, hrest⟩ := List.forall_mem_cons.1 h
    have hmember := SpellsMembers.member blanks_nil
      (spellsKey_quoted hlayout m.1 (level + 1)) (hm (level + 1)) (ih hrest)
    simpa [renderMembers] using hmember

/-- **What is printed is a spelling**, whatever the layout, of a value
without numbers. -/
theorem spells_render {x : Json} (hx : NumberFree x) (level : Nat) :
    Spells x (render layout level x) := by
  induction hx generalizing level with
  | null => exact .null
  | flag b =>
    cases b with
    | true => exact .on
    | false => exact .off
  | text s => exact .text (spellsText_escaped s.toList)
  | @list items hitems ih =>
    cases items with
    | nil => exact .nil blanks_nil
    | cons x rest =>
      obtain ⟨hx, hrest⟩ := List.forall_mem_cons.1 ih
      have hlist := Spells.list (hlayout.gap (level + 1)) (hx (level + 1))
        (spellsItems_renderItems hlayout level hrest)
      simpa [render] using hlist
  | @object members hmembers ih =>
    cases members with
    | nil => exact .empty blanks_nil
    | cons m rest =>
      obtain ⟨hm, hrest⟩ := List.forall_mem_cons.1 ih
      have hobject := Spells.object (spellsKey_quoted hlayout m.1 (level + 1)) (hm (level + 1))
        (spellsMembers_renderMembers hlayout level hrest)
      simpa [render] using hobject

/-- So it is a document. -/
theorem document_render {x : Json} (hx : NumberFree x) :
    Document x (String.ofList (render layout 0 x)).toList := by
  rw [String.toList_ofList]
  exact (spells_render hlayout hx 0).document

end Printed

end Json

end TrafficGate
