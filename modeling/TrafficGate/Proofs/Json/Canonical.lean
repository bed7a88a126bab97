import TrafficGate.Proofs.Json.Parsing
import TrafficGate.Proofs.Json.Reading
/-!
# Values in canonical form

`Canonical shape x` says that `x` is what reading under the shape gives: no
member of a record is null or unknown, none that is required is missing, and
they stand in the order of declaration. Such a value is left as it is,
whether it is read from a text (`Canonical.readAs`) or taken from a value
that was parsed before (`Canonical.check_ordered`). Members that are put in
another order, and unknown ones among them, do not change what is read
(`CanonicalMembers.readAs_mixed`).
-/

namespace TrafficGate

namespace Json

/-! ## Canonical values -/

mutual

/-- A value that is in the canonical form of a shape. -/
inductive Canonical : Shape → Json → Prop
  | text (s : String) : Canonical .text (.text s)
  | flag (b : Bool) : Canonical .flag (.flag b)
  | word {names : List String} {s : String} : s ∈ names → Canonical (.word names) (.text s)
  | list {item : Shape} {xs : List Json} :
      (∀ x ∈ xs, Canonical item x) → Canonical (.list item) (.list xs)
  | null {inner : Shape} : Canonical (.optional inner) .null
  | present {inner : Shape} {x : Json} :
      x ≠ .null → Canonical inner x → Canonical (.optional inner) x
  | record {name : String} {fields : Fields} {members : List (String × Json)} :
      fields.names.Nodup → CanonicalMembers fields members →
      Canonical (.record name fields) (.object members)

/-- The members of a record in canonical form. -/
inductive CanonicalMembers : Fields → List (String × Json) → Prop
  | done : CanonicalMembers .done []
  | present {name : String} {required : Bool} {shape : Shape} {rest : Fields} {x : Json}
      {members : List (String × Json)} :
      x ≠ .null → Canonical shape x → CanonicalMembers rest members →
      CanonicalMembers (.field name required shape rest) ((name, x) :: members)
  | absent {name : String} {shape : Shape} {rest : Fields} {members : List (String × Json)} :
      CanonicalMembers rest members → CanonicalMembers (.field name false shape rest) members

end

/-- A field that is written only when there is something to write. -/
theorem CanonicalMembers.member? {α : Type} {name : String} {write : α → Json} {shape : Shape}
    {rest : Fields} {members : List (String × Json)} (hnull : ∀ a, write a ≠ .null)
    (hwrite : ∀ a, Canonical shape (write a)) (h : CanonicalMembers rest members)
    (a? : Option α) :
    CanonicalMembers (.field name false shape rest) (Json.member? name write a? ++ members) := by
  cases a? with
  | none => exact .absent h
  | some a => exact .present (hnull a) (hwrite a) h

/-- The same of the last field. -/
theorem CanonicalMembers.last {α : Type} {name : String} {write : α → Json} {shape : Shape}
    (hnull : ∀ a, write a ≠ .null) (hwrite : ∀ a, Canonical shape (write a)) (a? : Option α) :
    CanonicalMembers (.field name false shape .done) (Json.member? name write a?) := by
  have hmembers : CanonicalMembers (.field name false shape .done)
      (Json.member? name write a? ++ []) := .member? hnull hwrite .done a?
  rwa [List.append_nil] at hmembers

/-- The keys of canonical members are names of fields, in their order. -/
theorem CanonicalMembers.keys : ∀ {fields : Fields} {members : List (String × Json)},
    CanonicalMembers fields members → (members.map Prod.fst).Sublist fields.names
  | _, _, .done => List.Sublist.refl []
  | _, _, .present _ _ hrest => hrest.keys.cons_cons _
  | _, _, .absent hrest => hrest.keys.cons _

/-- **Nothing is dropped and nothing is missing** of canonical members, in
whatever order they were found. -/
theorem CanonicalMembers.assemble {α : Type} {take : Shape → α} {fields : Fields}
    {slots : List (Slot α)} {found members : List (String × Json)}
    (h : CanonicalMembers fields members) (hnodup : fields.names.Nodup)
    (hfound : ∀ key ∈ fields.names, lookup? key found = lookup? key members)
    (hslots : SlotsOf take fields slots) : Json.assemble found slots = .ok members := by
  induction hslots generalizing members with
  | done =>
    cases h
    rfl
  | @field name required shape rest slots _ ih =>
    obtain ⟨hname, hnames⟩ := List.nodup_cons.1 hnodup
    cases h with
    | @present _ _ _ _ x members hx _ hrest =>
      have hlookup : lookup? name found = some x := by
        rw [hfound name List.mem_cons_self, lookup?_cons, if_pos rfl]
      have hothers : ∀ key ∈ rest.names, lookup? key found = lookup? key members := by
        intro key hkey
        have hne : name ≠ key := fun h => hname (h ▸ hkey)
        rw [hfound key (List.mem_cons_of_mem name hkey), lookup?_cons, if_neg hne]
      exact assemble_of_present (present?_of_lookup? hlookup hx) (ih hrest hnames hothers)
    | absent hrest =>
      have hlookup : lookup? name found = none := by
        rw [hfound name List.mem_cons_self, lookup?_eq_none_iff]
        exact fun h => hname (hrest.keys.subset h)
      have hothers : ∀ key ∈ rest.names, lookup? key found = lookup? key members :=
        fun key hkey => hfound key (List.mem_cons_of_mem name hkey)
      refine assemble_of_not_present ?_ nofun (ih hrest hnames hothers)
      simp [present?, hlookup]

/-! ## Induction -/

section Induction

variable {motive : (shape : Shape) → (x : Json) → Canonical shape x → Prop} {name : String}
  {required : Bool} {shape : Shape} {rest : Fields} {members : List (String × Json)}

/-- Every member is of the shape of its field, and this holds of it. -/
def OfFields (motive : (shape : Shape) → (x : Json) → Canonical shape x → Prop)
    (fields : Fields) (members : List (String × Json)) : Prop :=
  ∀ m ∈ members, ∃ shape, fields.shape? m.1 = some shape ∧ ∃ h, motive shape m.2 h

/-- One more field makes no difference to members that are not named so. -/
theorem OfFields.absent (h : OfFields motive rest members) (hname : name ∉ members.map Prod.fst) :
    OfFields motive (.field name required shape rest) members := by
  intro m hm
  obtain ⟨shape', hshape, hmotive⟩ := h m hm
  have hne : name ≠ m.1 := fun heq => hname (heq ▸ List.mem_map_of_mem hm)
  exact ⟨shape', by simp [Fields.shape?, hne, hshape], hmotive⟩

/-- A field and its member in front. -/
theorem OfFields.present {x : Json} (hx : ∃ h, motive shape x h)
    (h : OfFields motive rest members) (hname : name ∉ members.map Prod.fst) :
    OfFields motive (.field name required shape rest) ((name, x) :: members) :=
  List.forall_mem_cons.2 ⟨⟨shape, by simp [Fields.shape?], hx⟩, h.absent hname⟩

/-- The name of a field that is not repeated is not that of a member behind. -/
theorem CanonicalMembers.not_mem_of_nodup (h : CanonicalMembers rest members)
    (hnodup : (Fields.field name required shape rest).names.Nodup) :
    name ∉ members.map Prod.fst :=
  fun hmem => (List.nodup_cons.1 hnodup).1 (h.keys.subset hmem)

/-- **Induction over canonical values**: a record is about the values of its
members. -/
theorem Canonical.induct (text : ∀ s, motive .text (.text s) (.text s))
    (flag : ∀ b, motive .flag (.flag b) (.flag b))
    (word : ∀ (names : List String) (s : String) (h : s ∈ names),
      motive (.word names) (.text s) (.word h))
    (list : ∀ (item : Shape) (xs : List Json) (h : ∀ x ∈ xs, Canonical item x),
      (∀ x hx, motive item x (h x hx)) → motive (.list item) (.list xs) (.list h))
    (null : ∀ inner, motive (.optional inner) .null .null)
    (present : ∀ (inner : Shape) (x : Json) (hx : x ≠ .null) (h : Canonical inner x),
      motive inner x h → motive (.optional inner) x (.present hx h))
    (record : ∀ (name : String) (fields : Fields) (members : List (String × Json))
      (hnodup : fields.names.Nodup) (h : CanonicalMembers fields members),
      OfFields motive fields members →
        motive (.record name fields) (.object members) (.record hnodup h))
    {shape : Shape} {x : Json} (h : Canonical shape x) : motive shape x h := by
  refine @Canonical.rec motive
    (fun fields members _ => fields.names.Nodup → OfFields motive fields members)
    text flag (fun h => word _ _ h) (fun h ih => list _ _ h ih) (null _)
    (fun hx h ih => present _ _ hx h ih) (fun hnodup h ih => record _ _ _ hnodup h (ih hnodup))
    ?_ ?_ ?_ shape x h
  · exact fun _ => List.forall_mem_nil _
  · intro _ _ _ _ _ _ _ hx hrest ihx ih hnodup
    exact .present ⟨hx, ihx⟩ (ih (List.nodup_cons.1 hnodup).2) (hrest.not_mem_of_nodup hnodup)
  · intro _ _ _ _ hrest ih hnodup
    exact .absent (ih (List.nodup_cons.1 hnodup).2) (hrest.not_mem_of_nodup hnodup)

/-- The members of a record are canonical, each in the shape of its field. -/
theorem CanonicalMembers.ofFields : ∀ {fields : Fields} {members : List (String × Json)},
    CanonicalMembers fields members → fields.names.Nodup →
      OfFields (fun _ _ _ => True) fields members
  | _, _, .done, _ => List.forall_mem_nil _
  | _, _, .present _ hx h, hnodup =>
    .present ⟨hx, trivial⟩ (h.ofFields (List.nodup_cons.1 hnodup).2) (h.not_mem_of_nodup hnodup)
  | _, _, .absent h, hnodup =>
    .absent (h.ofFields (List.nodup_cons.1 hnodup).2) (h.not_mem_of_nodup hnodup)

end Induction

/-! ## Canonical values are left as they are -/

/-- A canonical value holds no number. -/
theorem Canonical.numberFree {shape : Shape} {x : Json} (h : Canonical shape x) : NumberFree x := by
  induction h using Canonical.induct with
  | text s => exact .text s
  | flag b => exact .flag b
  | word names s h => exact .text s
  | list item xs h ih => exact .list ih
  | null inner => exact .null
  | present inner x hx h ih => exact ih
  | record name fields members hnodup h ih =>
    refine .object fun m hm => ?_
    obtain ⟨shape, -, -, hfree⟩ := ih m hm
    exact hfree

/-- **A canonical value is read as itself.** -/
theorem Canonical.readAs {shape : Shape} {x : Json} (h : Canonical shape x) :
    ReadAs shape x x := by
  induction h using Canonical.induct with
  | text s => exact readAs_text s
  | flag b => exact readAs_flag b
  | word names s h => exact readAs_word h
  | list item xs h ih => exact .list (List.forall₂_same.2 ih)
  | null inner => exact readAs_null inner
  | present inner x hx h ih => exact ih.optional hx
  | record name fields members hnodup h ih =>
    have hmembers : ∀ m ∈ members, MemberAs fields m m := fun m hm => by
      obtain ⟨shape, hshape, -, hread⟩ := ih m hm
      exact memberAs_of_readAs hshape hread
    exact .record_of_assemble (membersAs_self hmembers) (h.keys.nodup hnodup)
      (h.assemble hnodup (fun _ _ => rfl) (slotsOf_readSlots fields))

/-! ### Members in another order, and unknown ones among them -/

section Mixed

variable {fields : Fields} {own foreign members : List (String × Json)}

/-- Canonical members are kept by their fields as they are. -/
theorem CanonicalMembers.memberAs (h : CanonicalMembers fields own) (hnodup : fields.names.Nodup) :
    ∀ m ∈ own, MemberAs fields m m := by
  intro m hm
  obtain ⟨shape, hshape, hcanonical, -⟩ := h.ofFields hnodup m hm
  exact memberAs_of_readAs hshape hcanonical.readAs

/-- What is found among members that are known or not. -/
theorem membersAs_filter
    (h : ∀ m ∈ members, m.1 ∈ fields.names → MemberAs fields m m) :
    MembersAs fields members (members.filter fun m => m.1 ∈ fields.names) := by
  induction members with
  | nil => exact .nil
  | cons m members ih =>
    obtain ⟨hm, hmembers⟩ := List.forall_mem_cons.1 h
    by_cases hname : m.1 ∈ fields.names
    · rw [List.filter_cons_of_pos (by simpa using hname)]
      exact .known (hm hname) (ih hmembers)
    · rw [List.filter_cons_of_neg (by simpa using hname)]
      exact .foreign (Fields.shape?_eq_none_iff.2 hname) (ih hmembers)

/-- **The order of the members and unknown ones among them do not count.** -/
theorem CanonicalMembers.readAs_mixed (h : CanonicalMembers fields own)
    (hnodup : fields.names.Nodup) (hforeign : ∀ m ∈ foreign, m.1 ∉ fields.names)
    (hperm : members.Perm (own ++ foreign)) (name : String) :
    ReadAs (.record name fields) (.object members) (.object own) := by
  have hown : ∀ m ∈ own, m.1 ∈ fields.names := fun m hm =>
    h.keys.subset (List.mem_map_of_mem hm)
  have hmembers : ∀ m ∈ members, m.1 ∈ fields.names → MemberAs fields m m := by
    intro m hm hname
    rcases List.mem_append.1 (hperm.mem_iff.1 hm) with hm | hm
    · exact h.memberAs hnodup m hm
    · exact absurd hname (hforeign m hm)
  have hfound : (members.filter fun m => m.1 ∈ fields.names).Perm own := by
    have hall : own.filter (fun m => m.1 ∈ fields.names) = own :=
      List.filter_eq_self.2 (by simpa using hown)
    have hnone : foreign.filter (fun m => m.1 ∈ fields.names) = [] :=
      List.filter_eq_nil_iff.2 (by simpa using hforeign)
    have hfilter := hperm.filter fun m => decide (m.1 ∈ fields.names)
    rwa [List.filter_append, hall, hnone, List.append_nil] at hfilter
  have hkeys : ((members.filter fun m => m.1 ∈ fields.names).map Prod.fst).Nodup :=
    (hfound.map Prod.fst).nodup_iff.2 (h.keys.nodup hnodup)
  exact .record_of_assemble (membersAs_filter hmembers) hkeys
    (h.assemble hnodup (fun key _ => lookup?_perm hfound hkeys key) (slotsOf_readSlots fields))

end Mixed

/-! ### Values that were parsed before -/

section Ordered

variable {key : String} {x : Json} {members : List (String × Json)}

theorem orderedItems_eq (xs : List Json) : orderedItems xs = xs.map ordered := by
  induction xs with
  | nil => rfl
  | cons x xs ih => simp [orderedItems, ih]

/-- A member with its value in order. -/
def orderedMember (m : String × Json) : String × Json := (m.1, m.2.ordered)

theorem orderedMembers_eq (members : List (String × Json)) :
    orderedMembers members = members.map orderedMember := by
  induction members with
  | nil => rfl
  | cons m members ih => simp [orderedMembers, orderedMember, ih]

/-- It makes no difference whether values are ordered before or after they
are put in. -/
theorem insertMember_map (key : String) (x : Json) (members : List (String × Json)) :
    insertMember key x.ordered (members.map orderedMember) =
      (insertMember key x members).map orderedMember := by
  induction members with
  | nil => rfl
  | cons m members ih =>
    obtain ⟨k, v⟩ := m
    simp only [List.map_cons, orderedMember, insertMember]
    split
    · rfl
    · split
      · rfl
      · rw [List.map_cons, ← ih]
        rfl

/-- The values of members play no part in their order. -/
theorem orderMembers_map (members : List (String × Json)) :
    orderMembers (members.map orderedMember) = (orderMembers members).map orderedMember := by
  have hfold : ∀ acc : List (String × Json),
      (members.map orderedMember).foldl (fun acc m => insertMember m.1 m.2 acc)
          (acc.map orderedMember) =
        (members.foldl (fun acc m => insertMember m.1 m.2 acc) acc).map orderedMember := by
    induction members with
    | nil => exact fun acc => rfl
    | cons m members ih =>
      intro acc
      rw [List.map_cons, List.foldl_cons, List.foldl_cons, ← ih, ← insertMember_map]
      rfl
  exact hfold []

/-- A member that is put in is there beside the others. -/
theorem insertMember_perm (h : key ∉ members.map Prod.fst) :
    (insertMember key x members).Perm ((key, x) :: members) := by
  induction members with
  | nil => exact List.Perm.refl _
  | cons m members ih =>
    obtain ⟨k, v⟩ := m
    rw [List.map_cons, List.mem_cons, not_or] at h
    unfold insertMember
    split
    · exact List.Perm.refl _
    · rw [if_neg h.1]
      exact ((ih h.2).cons (k, v)).trans (List.Perm.swap _ _ _)

/-- Members of different keys are put in another order, and that is all. -/
theorem orderMembers_perm (h : (members.map Prod.fst).Nodup) :
    (orderMembers members).Perm members := by
  have hfold : ∀ acc : List (String × Json), ((acc ++ members).map Prod.fst).Nodup →
      (members.foldl (fun acc m => insertMember m.1 m.2 acc) acc).Perm (acc ++ members) := by
    clear h
    induction members with
    | nil =>
      intro acc _
      rw [List.append_nil]
      exact List.Perm.refl _
    | cons m members ih =>
      intro acc hnodup
      have hfresh : m.1 ∉ acc.map Prod.fst := by
        rw [List.map_append, List.nodup_append] at hnodup
        exact fun hmem => hnodup.2.2 _ hmem _ (List.mem_map_of_mem List.mem_cons_self) rfl
      have hinsert : (insertMember m.1 m.2 acc ++ members).Perm (acc ++ m :: members) :=
        ((insertMember_perm hfresh).append_right members).trans List.perm_middle.symm
      exact (ih _ ((hinsert.map Prod.fst).nodup_iff.2 hnodup)).trans hinsert
  exact hfold [] h

end Ordered

theorem slotsOf_checkSlots : ∀ fields : Fields, SlotsOf check fields (checkSlots fields)
  | .done => .done
  | .field _ _ _ rest => .field (slotsOf_checkSlots rest)

/-- Members that are all of their fields. -/
theorem checkMembers_ordered {fields : Fields} {members : List (String × Json)}
    (h : ∀ m ∈ members, ∃ shape, fields.shape? m.1 = some shape ∧
      check shape m.2.ordered = .ok m.2) :
    checkMembers (checkSlots fields) (members.map orderedMember) = .ok members := by
  induction members with
  | nil => rfl
  | cons m members ih =>
    obtain ⟨⟨shape, hshape, hcheck⟩, hmembers⟩ := List.forall_mem_cons.1 h
    obtain ⟨slot, hslot, htake⟩ := (slotsOf_checkSlots fields).find? hshape
    rw [← htake] at hcheck
    simp only [List.map_cons, orderedMember, checkMembers, hslot, hcheck, ih hmembers, bind,
      Except.bind]

/-- Items that are taken back one by one are taken back as a list. -/
theorem mapM_ordered {f : Json → Except Fault Json} {xs : List Json}
    (h : ∀ x ∈ xs, f x.ordered = .ok x) : (xs.map ordered).mapM f = .ok xs := by
  induction xs with
  | nil => rfl
  | cons x xs ih =>
    obtain ⟨hx, hxs⟩ := List.forall_mem_cons.1 h
    simp only [List.map_cons, List.mapM_cons, hx, ih hxs, bind, Except.bind, pure, Except.pure]

/-- Only null is null in order. -/
theorem ordered_eq_null {x : Json} (h : x.ordered = .null) : x = .null := by
  cases x with
  | null => rfl
  | flag b => cases h
  | number n => cases h
  | text s => cases h
  | list items => cases h
  | object members => cases h

theorem checkOptional_of_ne_null {inner : Json → Except Fault Json} {x : Json} (h : x ≠ .null) :
    checkOptional inner x = inner x := by
  cases x with
  | null => exact absurd rfl h
  | flag b => rfl
  | number n => rfl
  | text s => rfl
  | list items => rfl
  | object members => rfl

/-- **A canonical value that was parsed is taken for itself.** -/
theorem Canonical.check_ordered {shape : Shape} {x : Json} (h : Canonical shape x) :
    check shape x.ordered = .ok x := by
  induction h using Canonical.induct with
  | text s => rfl
  | flag b => rfl
  | word names s h =>
    have hword : knownWord names s = .ok (.text s) := if_pos (List.contains_iff_mem.2 h)
    exact hword
  | list item xs h ih =>
    simp only [ordered, orderedItems_eq, check, checkList, mapM_ordered ih, bind, Except.bind]
  | null inner => rfl
  | present inner x hx h ih =>
    exact (checkOptional_of_ne_null fun hnull => hx (ordered_eq_null hnull)).trans ih
  | record name fields members hnodup h ih =>
    have hperm := orderMembers_perm (h.keys.nodup hnodup)
    have hkeys : ((orderMembers members).map Prod.fst).Nodup :=
      (hperm.map Prod.fst).nodup_iff.2 (h.keys.nodup hnodup)
    have hmembers : checkMembers (checkSlots fields) ((orderMembers members).map orderedMember) =
        .ok (orderMembers members) :=
      checkMembers_ordered fun m hm => by
        obtain ⟨shape, hshape, -, hcheck⟩ := ih m (hperm.mem_iff.1 hm)
        exact ⟨shape, hshape, hcheck⟩
    have hassemble := h.assemble hnodup (fun key _ => lookup?_perm hperm hkeys key)
      (slotsOf_checkSlots fields)
    simp only [ordered, orderedMembers_eq, orderMembers_map, check, checkRecord, hmembers,
      hassemble, bind, Except.bind]

end Json

end TrafficGate
