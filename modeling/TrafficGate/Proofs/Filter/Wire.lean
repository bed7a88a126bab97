import TrafficGate.MemoryServer
import TrafficGate.Proofs.Codecs
/-!
# Filters on the wire

What is written of a filter is what is read of it. A request for a new
filter and the filter that is reported are different records; still a server
that gives back what it was sent, with an id anywhere among it, reports the
filter that was asked for (`reads_newFilter`).
-/

namespace TrafficGate

open Json (Canonical ReadAs MemberAs lookup? present? member? memberAs_of_readAs)

/-! ## New filters -/

namespace FilterCreation

/-- The members of a request for a new filter. -/
def members (c : FilterCreation) : List (String × Json) :=
  [("name", .text c.name), ("region", .text c.region),
    ("type", FilterType.codec.encode c.type)] ++
  member? "description" .text c.description ++
  member? "include_by_default" .flag c.includeByDefault ++
  member? "rules" Rule.codec.listOf.encode c.rules

theorem toJson_eq (c : FilterCreation) : c.toJson = .object c.members := rfl

/-- The fields of a reported filter. -/
def reportedFields : Json.Fields :=
  .field "id" true .text <|
  .field "name" true .text <|
  .field "type" true FilterType.codec.shape <|
  .field "region" true .text <|
  .field "include_by_default" false .flag <|
  .field "description" false (.optional .text) <|
  .field "rules" false (.list Rule.codec.shape) .done

/-- Every member of a request is one of a report. -/
theorem canonical_members (c : FilterCreation) (id : String) :
    ∀ m ∈ ("id", .text id) :: c.members,
      ∃ shape, reportedFields.shape? m.1 = some shape ∧ Canonical shape m.2 := by
  simp only [members, List.forall_mem_cons, List.forall_mem_append, List.cons_append,
    List.nil_append]
  refine ⟨?_, ?_, ?_, ?_, ⟨?_, ?_⟩, ?_⟩
  · exact ⟨_, rfl, .text id⟩
  · exact ⟨_, rfl, .text c.name⟩
  · exact ⟨_, rfl, .text c.region⟩
  · exact ⟨_, rfl, FilterType.faithful_codec.canonical c.type⟩
  · exact Json.forall_mem_member? fun d => ⟨_, rfl, Json.canonical_optional_text d⟩
  · exact Json.forall_mem_member? fun b => ⟨_, rfl, .flag b⟩
  · exact Json.forall_mem_member? fun rules => ⟨_, rfl, Rule.faithful_codec.listOf.canonical rules⟩

/-- No key stands twice, whatever is absent. -/
theorem nodup_members (c : FilterCreation) (id : String) :
    ((("id", .text id) :: c.members).map Prod.fst).Nodup := by
  have hkeys : ((("id", .text id) :: c.members).map Prod.fst).Sublist
      (["id", "name", "region", "type"] ++ ["description"] ++ ["include_by_default"] ++
        ["rules"]) := by
    simp only [members, ← List.cons_append, List.map_append]
    exact (((List.Sublist.refl _).append (Json.keys_member? ..)).append
      (Json.keys_member? ..)).append (Json.keys_member? ..)
  exact hkeys.nodup (by decide)

section Reported

variable {c : FilterCreation} {id : String} {members : List (String × Json)}

/-- What stands under the keys of a report. -/
structure Reported (c : FilterCreation) (id : String) (under : String → Option Json) : Prop where
  id : under "id" = some (.text id)
  name : under "name" = some (.text c.name)
  region : under "region" = some (.text c.region)
  type : under "type" = some (FilterType.codec.encode c.type)
  description : under "description" = c.description.map .text
  includeByDefault : under "include_by_default" = c.includeByDefault.map .flag
  rules : under "rules" = c.rules.map Rule.codec.listOf.encode

theorem reported_of_perm (h : members.Perm (("id", .text id) :: c.members)) :
    Reported c id (lookup? · members) := by
  have hnodup : (members.map Prod.fst).Nodup :=
    (h.map Prod.fst).nodup_iff.2 (c.nodup_members id)
  have hlookup := Json.lookup?_perm h hnodup
  constructor
  all_goals
    rw [hlookup]
    simp [FilterCreation.members]

/-- Nothing of it is null. -/
theorem Reported.present (h : Reported c id (lookup? · members)) :
    Reported c id (present? · members) where
  id := Json.present?_of_lookup? h.id (by simp)
  name := Json.present?_of_lookup? h.name (by simp)
  region := Json.present?_of_lookup? h.region (by simp)
  type := Json.present?_of_lookup? h.type (by simp [FilterType.codec])
  description := Json.present?_of_lookup?_map h.description (by simp)
  includeByDefault := Json.present?_of_lookup?_map h.includeByDefault (by simp)
  rules := Json.present?_of_lookup?_map h.rules (by simp [Json.Codec.listOf])

/-- It means the filter that was asked for. -/
theorem Reported.ofCanonical (h : Reported c id (lookup? · members)) :
    FilterInfo.codec.ofCanonical (.object members) = MemoryServer.newFilter c id := by
  have hget : ∀ key, Json.get? key (.object members) = lookup? key members := fun _ => rfl
  simp only [FilterInfo.codec, MemoryServer.newFilter, Json.textAt, Json.textAt?, Json.flagAt,
    Json.listAt?, hget, h.id, h.name, h.region, h.type, h.description, h.includeByDefault, h.rules,
    Json.bind_text?, Json.bind_flag?, Rule.faithful_codec.bind_items?, Option.getD_some,
    Option.bind_some, Json.text?, FilterType.faithful_codec.ofCanonical]

theorem numberFree_of_perm (h : members.Perm (("id", .text id) :: c.members)) :
    Json.NumberFree (.object members) :=
  .object fun m hm => by
    obtain ⟨shape, -, hcanonical⟩ := c.canonical_members id m (h.mem_iff.1 hm)
    exact hcanonical.numberFree

/-- **A request comes back as the filter it asked for**, if an id is put
among it, and in whatever order. -/
theorem reads_newFilter (h : members.Perm (("id", .text id) :: c.members)) :
    FilterInfo.codec.Reads (.object members) (MemoryServer.newFilter c id) := by
  have hmembers : ∀ m ∈ members, MemberAs reportedFields m m := fun m hm => by
    obtain ⟨shape, hshape, hcanonical⟩ := c.canonical_members id m (h.mem_iff.1 hm)
    exact memberAs_of_readAs hshape hcanonical.readAs
  have hnodup : (members.map Prod.fst).Nodup :=
    (h.map Prod.fst).nodup_iff.2 (c.nodup_members id)
  have hreported := reported_of_perm h
  have hrequired : ∀ key ∈ reportedFields.required, lookup? key members ≠ none := by
    have hnames : reportedFields.required = ["id", "name", "type", "region"] := rfl
    simp [hnames, hreported.id, hreported.name, hreported.type, hreported.region]
  obtain ⟨out, hread, hout⟩ := ReadAs.record "TrafficFilterInfo"
    (Json.membersAs_self hmembers) hnodup hrequired
  have hpresent := hreported.present
  simp only [← hout] at hpresent
  exact ⟨.object out, hread, hpresent.ofCanonical⟩

end Reported

end FilterCreation

end TrafficGate
