import TrafficGate.Proofs.Association.Lists
import TrafficGate.Proofs.Association.Requests
import TrafficGate.Proofs.Client.Sample
import TrafficGate.Proofs.Codecs
/-!
# A list, written and read back

A membership is sent as a list of references and is read off the record of
a project. These are different texts, written by different parties. Still a
server that puts what it received into its record, whatever else is in
there, reports the membership that was written, and so does every later
read of this record (`membership_returns`). The empty list is no exception:
it is sent as a list, not as null and not left out.
-/

namespace TrafficGate

open Json (Document MemberAs ReadAs lookup? memberAs_of_readAs)

/-! ## What is sent -/

/-- The value of a list as it is sent. -/
def listing (ids : List String) : Json := .list (ids.map fun id => .object [("id", .text id)])

/-- A list of references is written as the list of their ids. -/
theorem listing_ids (m : Membership) :
    listing m.ids = FilterRef.codec.listOf.encode m.toFilters := by
  simp [listing, Json.Codec.listOf, Membership.toFilters, FilterRef.codec, Function.comp_def]

/-- What a request sends as the list of a project. -/
def Request.listing? (r : Request) : Option Json :=
  match r.body.map fun text => Json.parse (Utf8.ofString text) with
  | some (.ok x) => x.get? "traffic_filters"
  | _ => none

theorem ordered_listing (ids : List String) : (listing ids).ordered = listing ids := by
  simp only [listing, Json.ordered, Json.orderedItems_eq, List.map_map]
  rfl

theorem numberFree_listing (ids : List String) : Json.NumberFree (listing ids) :=
  .list fun x hx => by
    obtain ⟨id, -, rfl⟩ := List.mem_map.1 hx
    exact .object (List.forall_mem_singleton.2 (.text id))

/-- **The value that is sent is the one that is received.** -/
theorem parse_listText (ids : List String) :
    Json.parse (Utf8.ofString (listText ids)) =
      .ok (.object [("traffic_filters", listing ids)]) := by
  have hfree : Json.NumberFree (.object [("traffic_filters", listing ids)]) :=
    .object (List.forall_mem_singleton.2 (numberFree_listing ids))
  have hdocument : Document (.object [("traffic_filters", listing ids)]) (listText ids).toList :=
    Json.document_render Json.Layout.blank_compact hfree
  rw [Json.parse_document hdocument hfree]
  simp only [Json.ordered, Json.orderedMembers, ordered_listing]
  rfl

/-! ## What is read -/

/-- The fields of a record. -/
def Json.Shape.fields : Json.Shape → Json.Fields
  | .record _ fields => fields
  | _ => .done

/-- The record of a project of a kind with a value for its list. Its members
stand in any order, and any others among them. -/
structure ProjectRecord (kind : ProjectKind) (sent : Json) (members : List (String × Json)) :
    Prop where
  texts : ∀ key ∈ ["id", "name"], ∃ s, (key, .text s) ∈ members
  /-- Any other field of the kind is a text or null, if it is there. -/
  optional : ∀ key ∈ ["alias", "region_id", kind.ownField], ∀ x, (key, x) ∈ members →
    x = .null ∨ ∃ s, x = .text s
  list : ("traffic_filters", sent) ∈ members
  /-- No field of the kind stands twice. -/
  once : ((members.filter fun m => m.1 ∈ (Project.codec kind).shape.fieldNames).map
    Prod.fst).Nodup

namespace ProjectRecord

variable {kind : ProjectKind} {sent : Json} {members : List (String × Json)}
  {refs : List FilterRef}

/-- What a reader finds of it. -/
def found (kind : ProjectKind) (members : List (String × Json)) : List (String × Json) :=
  members.filter fun m => m.1 ∈ (Project.codec kind).shape.fieldNames

/-- A field of the kind is found, and nothing else under its key. -/
theorem lookup?_found (h : ProjectRecord kind sent members) {key : String} {x : Json}
    (hkey : key ∈ (Project.codec kind).shape.fieldNames) (hmem : (key, x) ∈ members) :
    lookup? key (found kind members) = some x :=
  Json.lookup?_of_mem h.once (List.mem_filter.2 ⟨hmem, by simpa using hkey⟩)

/-- **Every field of the kind is what it is to be.** -/
theorem memberAs_field (h : ProjectRecord kind (FilterRef.codec.listOf.encode refs) members) :
    ∀ m ∈ members, m.1 ∈ (Project.codec kind).shape.fields.names →
      MemberAs (Project.codec kind).shape.fields m m := by
  rintro ⟨key, x⟩ hmem hkey
  have hunique : ∀ y, (key, y) ∈ members → x = y := fun y hy =>
    Option.some.inj ((h.lookup?_found hkey hmem).symm.trans (h.lookup?_found hkey hy))
  have htext : (∃ s, (key, .text s) ∈ members) → ReadAs .text x x := by
    rintro ⟨s, hs⟩
    rw [hunique _ hs]
    exact Json.readAs_text s
  have hoptional : (x = .null ∨ ∃ s, x = .text s) → ReadAs (.optional .text) x x := by
    rintro (rfl | ⟨s, rfl⟩)
    · exact Json.readAs_null .text
    · exact Json.readAs_optional_text s
  have hnames : key ∈ ["id", "name", "alias", "region_id", kind.ownField, "traffic_filters"] := hkey
  simp only [List.mem_cons, List.not_mem_nil, or_false] at hnames
  rcases hnames with rfl | rfl | rfl | rfl | rfl | rfl
  · exact memberAs_of_readAs rfl (htext (h.texts _ (by simp)))
  · exact memberAs_of_readAs rfl (htext (h.texts _ (by simp)))
  · exact memberAs_of_readAs rfl (hoptional (h.optional _ (by simp) x hmem))
  · exact memberAs_of_readAs rfl (hoptional (h.optional _ (by simp) x hmem))
  · refine memberAs_of_readAs ?_ (hoptional (h.optional _ (by simp) x hmem))
    -- no kind has a name for its own field that another field has
    cases kind <;> rfl
  · rw [hunique _ h.list]
    refine memberAs_of_readAs ?_ (FilterRef.faithful_codec.optional_listOf refs).readAs
    cases kind <;> rfl

/-- **The record is read as a project with this list.** -/
theorem exists_ofBytes (h : ProjectRecord kind (FilterRef.codec.listOf.encode refs) members)
    {s : String} (hs : Document (.object members) s.toList) :
    ∃ project, (Project.codec kind).ofBytes (Utf8.encode s) = .ok project ∧
      project.filters = some refs := by
  have hrequired : ∀ key ∈ (Project.codec kind).shape.fields.required,
      lookup? key (found kind members) ≠ none := by
    have hnames : (Project.codec kind).shape.fields.required = ["id", "name"] := by
      cases kind <;> rfl
    rw [hnames]
    intro key hkey
    obtain ⟨s, hmem⟩ := h.texts key hkey
    have hfield : key ∈ (Project.codec kind).shape.fieldNames :=
      List.mem_append_left ["alias", "region_id", kind.ownField, "traffic_filters"] hkey
    rw [h.lookup?_found hfield hmem]
    exact Option.some_ne_none _
  obtain ⟨out, hread, hout⟩ := ReadAs.record kind.recordName
    (Json.membersAs_filter h.memberAs_field) h.once hrequired
  have hlist : lookup? "traffic_filters" out = some (FilterRef.codec.listOf.encode refs) := by
    have hfield : "traffic_filters" ∈ (Project.codec kind).shape.fieldNames :=
      List.mem_append_right ["id", "name", "alias", "region_id", kind.ownField]
        (List.mem_singleton_self _)
    rw [hout]
    exact Json.present?_of_lookup? (h.lookup?_found hfield h.list) (by simp [Json.Codec.listOf])
  have hreads : (Project.codec kind).Reads (.object members)
      ((Project.codec kind).ofCanonical (.object out)) := ⟨_, hread, rfl⟩
  refine ⟨_, hreads.ofBytes hs, ?_⟩
  -- of all the fields only the list matters from here on
  change ((lookup? "traffic_filters" out).bind Json.items?).map _ = some refs
  rw [hlist]
  exact FilterRef.faithful_codec.bind_items? (some refs)

end ProjectRecord

/-! ## There and back -/

namespace ProjectKey

variable {client : Client} {p : ProjectKey} {m : Membership} {members : List (String × Json)}

/-- The request of a write carries the list. -/
theorem listing?_writing {patch : Request} (h : client.request? (p.writing m) = some patch) :
    patch.listing? = some (listing m.ids) := by
  rw [request?_writing] at h
  obtain ⟨u, -, rfl⟩ := Option.map_eq_some_iff.1 h
  simp only [Request.listing?, Option.map_some, parse_listText]
  rfl

/-- **A response with such a record reports what was sent**, to a read and to
a write. -/
theorem reports_of_record (h : ProjectRecord p.kind (listing m.ids) members) {s : String}
    (hs : Document (.object members) s.toList) :
    Lists.Reports (some m.ids) (Client.understood p.reading (.ok (.ok, Utf8.encode s))) ∧
      Lists.Reports (some m.ids)
        (Client.understood (p.writing m) (.ok (.ok, Utf8.encode s))) := by
  rw [listing_ids] at h
  obtain ⟨project, hbytes, hfilters⟩ := h.exists_ofBytes hs
  have hids : project.filters.map (fun refs => refs.map FilterRef.id) = some m.ids := by
    rw [hfilters, Option.map_some, Membership.map_id_toFilters]
  -- the outcomes of the two calls are of one type, if not on the face of it
  have hread : Client.interpret p.reading (.ok, Utf8.encode s) =
      .ok ⟨.ok, some project, Utf8.encode s⟩ :=
    Client.interpret_of_ofBytes_ok rfl rfl hbytes
  have hwritten : Client.interpret (p.writing m) (.ok, Utf8.encode s) =
      .ok ⟨.ok, some project, Utf8.encode s⟩ :=
    Client.interpret_of_ofBytes_ok rfl rfl hbytes
  exact ⟨⟨project, _, hread, hids⟩, ⟨project, _, hwritten, hids⟩⟩

/-- So the membership that is read off such a response is the one that was
sent. -/
theorem reported_of_record (h : ProjectRecord p.kind (listing m.ids) members) {s : String}
    (hs : Document (.object members) s.toList) :
    p.reported .readProject (Client.understood p.reading (.ok (.ok, Utf8.encode s))) = .ok m ∧
      p.reported .updateProject
        (Client.understood (p.writing m) (.ok (.ok, Utf8.encode s))) = .ok m := by
  obtain ⟨hread, hwritten⟩ := reports_of_record h hs
  rw [Lists.reported_of_reports hread, Lists.reported_of_reports hwritten, Option.getD_some,
    Membership.ofIds_ids]
  exact ⟨rfl, rfl⟩

/-- **A membership comes back as it was written**, of every kind of project.
The request that writes it sends a list, an empty one if there are no ids.
If it is answered with a record of the project that has this list, in
whatever text, then the membership that is reported is the one that was
written, in its order, and there is nothing to remark on. Any later read
that is answered with such a record reports it, too. -/
theorem membership_returns {patch : Request} (hpatch : client.request? (p.writing m) = some patch) :
    ∃ sent, patch.listing? = some sent ∧ (m.ids = [] → sent = .list []) ∧
      ∀ (members : List (String × Json)) (s : String), ProjectRecord p.kind sent members →
        Document (.object members) s.toList →
          client.Yields (p.storeMembership m).run (patch, .ok (.ok, Utf8.encode s)) (.ok m) ∧
          client.Yields (p.write m).run (patch, .ok (.ok, Utf8.encode s)) (.ok []) ∧
          ∀ (reader : Client) (get : Request), reader.request? p.reading = some get →
            reader.Yields p.fetchMembership.run (get, .ok (.ok, Utf8.encode s)) (.ok m) := by
  refine ⟨_, listing?_writing hpatch, fun hids => by rw [hids]; rfl, ?_⟩
  intro members s hrecord hs
  obtain ⟨hfetched, hstored⟩ := reported_of_record hrecord hs
  have hfinal : ∀ r : Request, Client.Final r (.ok (.ok, Utf8.encode s)) := fun r =>
    Client.final_ok r _
  refine ⟨?_, ?_, ?_⟩
  · have hyields := Client.yields_of_calls (p.calls_storeMembership m) hpatch (hfinal patch)
    rwa [hstored] at hyields
  · have hyields := Client.yields_of_calls (p.calls_write m) hpatch (hfinal patch)
    rwa [hstored, Except.map, Settling.remarks_self] at hyields
  · intro reader get hget
    have hyields := Client.yields_of_calls p.calls_fetchMembership hget (hfinal get)
    rwa [hfetched] at hyields

end ProjectKey

namespace Emptied

def project : ProjectKey := ⟨.observability, "p"⟩

def patch : Request :=
  Sample.request .patch ["projects", "observability", "p"]
    (some "\x7b\"traffic_filters\":[]\x7d")

def get : Request := Sample.request .get ["projects", "observability", "p"] none

/-- The record, with a null, and a field of another kind. -/
def members : List (String × Json) :=
  [("traffic_filters", .list []), ("alias", .null), ("name", .text "n"),
    ("optimized_for", .list [.null]), ("id", .text "p")]

def text : String := String.ofList (Json.render .indented 0 (.object members))

theorem projectRecord : ProjectRecord project.kind (.list []) members where
  texts := by simp [members]
  optional := by simp [members, project, ProjectKind.ownField]
  list := by simp [members]
  once := by decide +kernel

theorem document : Document (.object members) text.toList := by
  have hfree : Json.NumberFree (.object members) := by
    refine .object ?_
    simp only [members, List.forall_mem_cons]
    exact ⟨.list (List.forall_mem_nil _), .null, .text "n",
      .list (List.forall_mem_singleton.2 .null), .text "p", List.forall_mem_nil _⟩
  exact Json.document_render Json.Layout.blank_indented hfree

end Emptied

/-- **The last filter is taken off**: an empty list is sent, and read back
from a record that holds other fields without a value. -/
theorem ProjectKey.membership_returns_empty :
    Sample.client.request? (Emptied.project.writing default) = some Emptied.patch ∧
      ProjectRecord Emptied.project.kind (.list []) Emptied.members ∧
      Document (.object Emptied.members) Emptied.text.toList ∧
      Sample.client.Yields (Emptied.project.write default).run
        (Emptied.patch, .ok (.ok, Utf8.encode Emptied.text)) (.ok []) ∧
      Sample.client.request? Emptied.project.reading = some Emptied.get ∧
      Sample.client.Yields Emptied.project.fetchMembership.run
        (Emptied.get, .ok (.ok, Utf8.encode Emptied.text)) (.ok default) := by
  have hpatch : Sample.client.request? (Emptied.project.writing default) = some Emptied.patch := by
    decide +kernel
  have hget : Sample.client.request? Emptied.project.reading = some Emptied.get := by
    decide +kernel
  obtain ⟨sent, -, hempty, hreturns⟩ := ProjectKey.membership_returns hpatch
  obtain rfl : sent = .list [] := hempty rfl
  obtain ⟨-, hwrite, hread⟩ :=
    hreturns Emptied.members Emptied.text Emptied.projectRecord Emptied.document
  exact ⟨hpatch, Emptied.projectRecord, Emptied.document, hwrite, hget,
    hread Sample.client Emptied.get hget⟩

end TrafficGate
