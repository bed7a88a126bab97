import Mathlib.Data.List.Nodup
import TrafficGate.Json.Codec
/-!
# Members by their keys

What stands under a key of an object, and what of it a record keeps. The
order of the members does not matter as long as no key stands twice
(`lookup?_perm`); a record drops what is null and what it does not know
(`lookup?_assemble`). A record is read and held against its fields by slots
that are made of them, one of each (`SlotsOf`).
-/

namespace TrafficGate

namespace Json

variable {key : String} {members found : List (String × Json)}

@[simp] theorem lookup?_nil (key : String) : lookup? key [] = none := rfl

/-- A member in front is found if its key is looked up. -/
@[simp] theorem lookup?_cons (key k : String) (x : Json) (members : List (String × Json)) :
    lookup? key ((k, x) :: members) = if k = key then some x else lookup? key members := by
  unfold lookup?
  by_cases h : k = key
  · simp [h]
  · have hne : (k == key) = false := beq_false_of_ne h
    simp [hne, h]

/-- A key is looked up in the first list, and then in the second. -/
@[simp] theorem lookup?_append (key : String) (l₁ l₂ : List (String × Json)) :
    lookup? key (l₁ ++ l₂) = (lookup? key l₁).or (lookup? key l₂) := by
  unfold lookup?
  rw [List.find?_append]
  cases l₁.find? (·.1 == key) <;> rfl

/-- A key is not found if no member has it. -/
theorem lookup?_eq_none_iff : lookup? key members = none ↔ key ∉ members.map Prod.fst := by
  induction members with
  | nil => simp
  | cons m members ih =>
    obtain ⟨k, x⟩ := m
    rw [lookup?_cons, List.map_cons, List.mem_cons, not_or, ← ih]
    by_cases h : k = key
    · simp [h]
    · simp [h, Ne.symm h]

/-- A member is found under its key, if no other has this key. -/
theorem lookup?_of_mem {x : Json} (hnodup : (members.map Prod.fst).Nodup)
    (h : (key, x) ∈ members) : lookup? key members = some x := by
  induction members with
  | nil => cases h
  | cons m members ih =>
    obtain ⟨k, y⟩ := m
    obtain ⟨hk, hnodup⟩ := List.nodup_cons.1 hnodup
    rw [lookup?_cons]
    rcases List.mem_cons.1 h with heq | hmem
    · cases heq
      exact if_pos rfl
    · have hne : k ≠ key := fun heq => hk (List.mem_map.2 ⟨_, hmem, heq.symm⟩)
      rw [if_neg hne]
      exact ih hnodup hmem

/-- **A member is found wherever it stands.** -/
theorem lookup?_perm {members' : List (String × Json)} (h : members.Perm members')
    (hnodup : (members.map Prod.fst).Nodup) (key : String) :
    lookup? key members = lookup? key members' := by
  induction h with
  | nil => rfl
  | cons m _ ih =>
    obtain ⟨k, x⟩ := m
    rw [lookup?_cons, lookup?_cons, ih (List.Nodup.of_cons hnodup)]
  | swap a b members =>
    obtain ⟨k, x⟩ := a
    obtain ⟨k', x'⟩ := b
    have hne : k' ≠ k := by
      intro h
      simp [h] at hnodup
    simp only [lookup?_cons]
    by_cases hk : k = key
    · have hk' : k' ≠ key := hk ▸ hne
      simp [hk, hk']
    · simp [hk]
  | trans h₁ _ ih₁ ih₂ => rw [ih₁ hnodup, ih₂ ((h₁.map Prod.fst).nodup_iff.1 hnodup)]

/-- A member that is written only with a value is found only then. -/
@[simp] theorem lookup?_member? {α : Type} (key k : String) (write : α → Json) (a? : Option α) :
    lookup? key (member? k write a?) = if k = key then a?.map write else none := by
  cases a? with
  | none => simp [member?]
  | some a => simp [member?]

/-- A member that need not be there has no other key. -/
theorem keys_member? {α : Type} (key : String) (write : α → Json) (a? : Option α) :
    ((member? key write a?).map Prod.fst).Sublist [key] := by
  cases a? with
  | none => exact List.nil_sublist [key]
  | some a => exact List.Sublist.refl [key]

@[simp] theorem bind_text? (s? : Option String) : (s?.map Json.text).bind text? = s? := by
  cases s? <;> rfl

@[simp] theorem bind_flag? (b? : Option Bool) : (b?.map Json.flag).bind flag? = b? := by
  cases b? <;> rfl

/-- What holds of the member however it is written holds of all there are. -/
theorem forall_mem_member? {α : Type} {P : String × Json → Prop} {write : α → Json}
    {a? : Option α} (h : ∀ a, P (key, write a)) : ∀ m ∈ member? key write a?, P m := by
  cases a? with
  | none => exact List.forall_mem_nil _
  | some a => exact List.forall_mem_singleton.2 (h a)

/-! ## What a record keeps -/

/-- What stands under a key and is not null. -/
def present? (key : String) (members : List (String × Json)) : Option Json :=
  (lookup? key members).filter fun x => !x.isNull

/-- A member that is not null is present. -/
theorem present?_of_lookup? {x : Json} (h : lookup? key members = some x) (hx : x ≠ .null) :
    present? key members = some x := by
  rw [present?, h]
  cases x with
  | null => exact absurd rfl hx
  | flag b => rfl
  | number n => rfl
  | text s => rfl
  | list items => rfl
  | object members => rfl

/-- What is written as something other than null counts as present. -/
theorem present?_of_lookup?_map {α : Type} {write : α → Json} {a? : Option α}
    (h : lookup? key members = a?.map write) (hwrite : ∀ a, write a ≠ .null) :
    present? key members = a?.map write := by
  cases a? with
  | none =>
    rw [present?, h]
    rfl
  | some a => exact present?_of_lookup? h (hwrite a)

section Assemble

variable {α : Type} {slot : Slot α} {slots : List (Slot α)} {out : List (String × Json)}

/-- A field that is present is kept. -/
theorem assemble_of_present {x : Json} (hx : present? slot.name found = some x)
    (hout : assemble found slots = .ok out) :
    assemble found (slot :: slots) = .ok ((slot.name, x) :: out) := by
  obtain ⟨hlookup, hnull⟩ := Option.filter_eq_some_iff.1 hx
  simp only [assemble, hlookup, hout]
  cases x with
  | null => cases hnull
  | flag b => rfl
  | number n => rfl
  | text s => rfl
  | list items => rfl
  | object members => rfl

/-- A field that is not, and need not be, is left out. -/
theorem assemble_of_not_present (hx : present? slot.name found = none)
    (hrequired : slot.required = true → lookup? slot.name found ≠ none)
    (hout : assemble found slots = .ok out) : assemble found (slot :: slots) = .ok out := by
  unfold present? at hx
  cases hlookup : lookup? slot.name found with
  | none =>
    have hoptional : slot.required = false := by
      rw [← Bool.not_eq_true]
      exact fun h => hrequired h hlookup
    simp only [assemble, hlookup, hoptional, Bool.false_eq_true, if_false, hout]
  | some x =>
    rw [hlookup] at hx
    cases x with
    | null => simp only [assemble, hlookup, hout]
    | flag b => cases hx
    | number n => cases hx
    | text s => cases hx
    | list items => cases hx
    | object members => cases hx

/-- **A record keeps what its fields name** and is not null. All that can be
wrong is that something is missing. -/
theorem lookup?_assemble
    (h : ∀ slot ∈ slots, slot.required = true → lookup? slot.name found ≠ none) :
    ∃ out, assemble found slots = .ok out ∧ ∀ key, lookup? key out =
      if key ∈ slots.map Slot.name then present? key found else none := by
  induction slots with
  | nil => exact ⟨[], rfl, by simp⟩
  | cons slot slots ih =>
    obtain ⟨out, hout, hlookup⟩ := ih fun s hs => h s (List.mem_cons_of_mem _ hs)
    simp only [List.map_cons, List.mem_cons]
    cases hx : present? slot.name found with
    | some x =>
      refine ⟨_, assemble_of_present hx hout, fun key => ?_⟩
      rw [lookup?_cons, hlookup]
      by_cases hkey : slot.name = key
      · simp [← hkey, hx]
      · simp [hkey, Ne.symm hkey]
    | none =>
      refine ⟨out, assemble_of_not_present hx (h slot List.mem_cons_self) hout, fun key => ?_⟩
      rw [hlookup]
      by_cases hkey : slot.name = key
      · simp [← hkey, hx]
      · simp [Ne.symm hkey]

end Assemble

/-! ## Fields -/

namespace Fields

/-- The names of the fields. -/
def names : Fields → List String
  | .done => []
  | .field name _ _ rest => name :: rest.names

/-- The shape of a field. -/
def shape? (key : String) : Fields → Option Shape
  | .done => none
  | .field name _ shape rest => if name = key then some shape else rest.shape? key

/-- The names of the fields that may not be missing. -/
def required : Fields → List String
  | .done => []
  | .field name required _ rest => if required then name :: rest.required else rest.required

/-- A name that no field has, has no shape. -/
theorem shape?_eq_none_iff {key : String} : ∀ {fields : Fields},
    fields.shape? key = none ↔ key ∉ fields.names
  | .done => by simp [shape?, names]
  | .field name required shape rest => by
    by_cases hname : name = key
    · simp [shape?, names, hname]
    · simp [shape?, names, hname, Ne.symm hname, shape?_eq_none_iff]

end Fields

/-- Slots that are made of fields, one of each. -/
inductive SlotsOf {α : Type} (take : Shape → α) : Fields → List (Slot α) → Prop
  | done : SlotsOf take .done []
  | field {name : String} {required : Bool} {shape : Shape} {rest : Fields}
      {slots : List (Slot α)} :
      SlotsOf take rest slots →
      SlotsOf take (.field name required shape rest) (⟨name, required, take shape⟩ :: slots)

namespace SlotsOf

variable {α : Type} {take : Shape → α} {fields : Fields} {slots : List (Slot α)}

/-- The slots have the names of their fields. -/
theorem names (h : SlotsOf take fields slots) : slots.map Slot.name = fields.names := by
  induction h with
  | done => rfl
  | field _ ih => simp [Fields.names, ih]

/-- A slot is found under the name of its field, -/
theorem find? {shape : Shape} (h : SlotsOf take fields slots)
    (hshape : fields.shape? key = some shape) :
    ∃ slot, slots.find? (·.name == key) = some slot ∧ slot.take = take shape := by
  induction h with
  | done => cases hshape
  | @field name required inner rest slots _ ih =>
    by_cases hname : name = key
    · have hinner : inner = shape := by simpa [Fields.shape?, hname] using hshape
      exact ⟨⟨name, required, take inner⟩, by simp [hname], by rw [hinner]⟩
    · obtain ⟨slot, hslot, htake⟩ := ih (by simpa [Fields.shape?, hname] using hshape)
      have hne : (name == key) = false := beq_false_of_ne hname
      exact ⟨slot, by simp [hne, hslot], htake⟩

/-- and none under any other name. -/
theorem find?_eq_none (h : SlotsOf take fields slots) (hshape : fields.shape? key = none) :
    slots.find? (·.name == key) = none := by
  rw [Fields.shape?_eq_none_iff, ← h.names] at hshape
  rw [List.find?_eq_none]
  intro slot hslot hname
  exact hshape (List.mem_map.2 ⟨slot, hslot, beq_iff_eq.1 hname⟩)

/-- A slot that is required is one of the fields that are. -/
theorem mem_required {slot : Slot α} (h : SlotsOf take fields slots) (hslot : slot ∈ slots)
    (hrequired : slot.required = true) : slot.name ∈ fields.required := by
  induction h with
  | done => cases hslot
  | @field name required inner rest slots _ ih =>
    rcases List.mem_cons.1 hslot with rfl | hslot
    · have hname : required = true := hrequired
      simp [Fields.required, hname]
    · have hmem := ih hslot
      cases required with
      | true => exact List.mem_cons_of_mem name hmem
      | false => exact hmem

end SlotsOf

end Json

end TrafficGate
