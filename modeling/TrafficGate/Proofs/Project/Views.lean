import TrafficGate.Proofs.Association.Wire
import TrafficGate.Proofs.Client.Sample
import TrafficGate.Proofs.Json.Ordering
import TrafficGate.Proofs.Project.InlineFilters
/-!
# Two views of the filters of a project

A project shows its filters in two ways: all at once, as a declared set, and
one by one, as associations that are there or not. Both are read off the
record of the project, one as a list in rising order and the other as a
membership, and they agree (`views_agree`): of the same record, the set
holds an id exactly if the association of this id is kept. A set that was
written is what both show afterwards. An absent list, a null and an empty
list are all one here: no set, and no association.
-/

namespace TrafficGate

open Dialogue (Gives Passes)
open Http (exchanges)
open Json (Document)

/-- What a report lists as the filters of a project. -/
def Report.listed? (r : Report) : Option Json := r.state.bind (·.get? "traffic_filters")

namespace Json

theorem ordered_ofTexts (ids : List String) : (ofTexts ids).ordered = ofTexts ids := by
  simp only [ofTexts, ordered, orderedItems_eq, List.map_map]
  rfl

end Json

namespace ProjectKey

variable {client : Client} {p : ProjectKey} {m : Membership} {shown : List String}

/-! ## One answer, seen from both sides -/

/-- The report of the filters of a project. -/
def filtersReport (p : ProjectKey) : Except ResourceError Membership → Report
  | .ok m =>
    ⟨"project", some (Run.projectState p.id p.kind (InlineFilters.ofMembership m)).ordered, []⟩
  | .error e => ⟨"project", none, [e.diagnostic]⟩

/-- **The report is made of one call.** -/
theorem calls_projectFilters (p : ProjectKey) :
    (Run.projectFilters p.id p.kind.name).calls = .ask p.reading fun o =>
      .done (p.filtersReport (p.reported .readProject o)) := by
  unfold Run.projectFilters
  rw [ProjectKind.ofName?_name]
  change ApiM.calls ((InlineFilters.fetch p).run.bind _) = _
  rw [ApiM.calls_bind]
  change (InlineFilters.fetch p).calls.bind _ = _
  rw [InlineFilters.calls_fetch, Dialogue.ask_bind]
  congr 1
  funext o
  cases p.reported .readProject o <;> rfl

/-- What is listed is the set, and null where there is none. -/
theorem listed?_filtersReport (p : ProjectKey) (m : Membership) :
    (p.filtersReport (.ok m)).listed? =
      some (if m.ids = [] then .null else .ofTexts (InlineFilters.sorted m.ids)) := by
  have hlisted : (p.filtersReport (.ok m)).listed? =
      some (((InlineFilters.ofMembership m).map Json.ofTexts).getD .null).ordered := by
    simp only [filtersReport, Report.listed?, Run.projectState, Option.bind_some]
    rw [Json.get?_ordered (by simp)]
    rfl
  rw [hlisted, InlineFilters.ofMembership_eq]
  split
  · rfl
  · exact congrArg some (Json.ordered_ofTexts _)

/-- What the two views show if an exchange is what comes of the request for
the project. -/
structure Shows (client : Client) (p : ProjectKey) (e : Request × Exchange)
    (shown : List String) : Prop where
  /-- The report of the project lists these ids, or null if there are none. -/
  inline : ∃ report, client.Yields (Run.projectFilters p.id p.kind.name) e report ∧
    report.diagnostics = [] ∧ (shown = [] → report.listed? = some .null) ∧
      (shown ≠ [] → report.listed? = some (.ofTexts shown))
  /-- Of the associations with the project those with one of these ids are
  kept, and no others. -/
  association : ∀ tracked : Association, tracked.project? = some p →
    client.Yields ((associationResource true).read (some tracked)) e
      ⟨if tracked.filterId ∈ shown then some tracked else none, []⟩

/-- **Both views show the ids of a membership that is reported.** -/
theorem shows_of_reported {get : Request} {raw : RawResponse}
    (hget : client.request? p.reading = some get) (hfinal : Client.Final get (.ok raw))
    (hreported : p.reported .readProject (Client.understood p.reading (.ok raw)) = .ok m)
    (hrising : Rising shown) (hmem : ∀ id, id ∈ m.ids ↔ id ∈ shown) :
    Shows client p (get, .ok raw) shown where
  inline := by
    have hyields := Client.yields_of_calls p.calls_projectFilters hget hfinal
    have hempty : m.ids = [] ↔ shown = [] := by
      simp only [List.eq_nil_iff_forall_not_mem, hmem]
    simp only [hreported] at hyields
    refine ⟨_, hyields, rfl, ?_, ?_⟩
    · intro hnone
      rw [listed?_filtersReport, if_pos (hempty.2 hnone)]
    · intro hsome
      rw [listed?_filtersReport, if_neg (mt hempty.1 hsome),
        InlineFilters.sorted_eq_of_mem_iff hrising hmem]
  association := by
    intro tracked hp
    have hcalls := AssociationResource.calls_read_of_project? hp
    have hyields := Client.yields_of_calls hcalls hget hfinal
    have hkept : m.contains tracked.filterId = true ↔ tracked.filterId ∈ shown := by
      rw [Membership.contains, List.contains_iff_mem, hmem]
    simp only [hreported, AssociationResource.readBack, hkept] at hyields
    exact hyields

/-- **A record shows the ids of its list**, in whatever order and however
often they stand there. -/
theorem shows_of_record {get : Request} {body : List UInt8} {project : Project}
    (hget : client.request? p.reading = some get)
    (hbody : (Project.codec p.kind).ofBytes body = .ok project) :
    Shows client p (get, .ok (.ok, body)) (InlineFilters.sorted project.filterIds) := by
  have hreported : p.reported .readProject (Client.interpret p.reading (.ok, body)) =
      .ok (.ofIds project.filterIds) :=
    reported_interpret.2 ⟨rfl, project, hbody, rfl⟩
  have hmem : ∀ id, id ∈ (Membership.ofIds project.filterIds).ids ↔ id ∈ project.filterIds :=
    fun _ => Membership.mem_firsts
  exact shows_of_reported hget (Client.final_ok get body) hreported (InlineFilters.rising_sorted _)
    fun id => (hmem id).trans InlineFilters.mem_sorted.symm

section Written

variable {declared : List String} {members : List (String × Json)} {s : String}
  (hrising : Rising declared) (hrecord : ProjectRecord p.kind (listing declared) members)
  (hs : Document (.object members) s.toList)

include hrising hrecord hs

/-- **A set that comes back as it was sent is what the write gives**, -/
theorem yields_store {patch : Request} (hne : declared ≠ [])
    (hpatch : client.request? (p.writing ⟨declared, hrising.nodup⟩) = some patch) :
    client.Yields (InlineFilters.store p (some declared)).run (patch, .ok (.ok, Utf8.encode s))
      (.ok (some declared)) := by
  obtain ⟨-, hstored⟩ := reported_of_record (m := ⟨declared, hrising.nodup⟩) hrecord hs
  have hyields := Client.yields_of_calls (InlineFilters.calls_store hrising.nodup hne) hpatch
    (Client.final_ok patch (Utf8.encode s))
  rwa [hstored, Except.map, InlineFilters.ofMembership_eq, if_neg hne,
    InlineFilters.sorted_eq_of_mem_iff hrising fun _ => Iff.rfl] at hyields

/-- **and what both views show.** -/
theorem shows_written {get : Request} (hget : client.request? p.reading = some get) :
    Shows client p (get, .ok (.ok, Utf8.encode s)) declared := by
  obtain ⟨hfetched, -⟩ := reported_of_record (m := ⟨declared, hrising.nodup⟩) hrecord hs
  exact shows_of_reported hget (Client.final_ok get _) hfetched hrising fun _ => Iff.rfl

end Written

/-- **A look-up sends the one request for the project**, -/
theorem request_of_fetch {log : Http.Log} {r : Except ResourceError (Option (List String))}
    (h : Gives (client.carryOut (InlineFilters.fetch p).run) log r) {e : Request × Exchange}
    (he : e ∈ exchanges log) : client.request? p.reading = some e.1 ∧ e.1.method = .get := by
  obtain ⟨answered, hgives, hspells⟩ := Client.gives_carryOut h
  change Gives (InlineFilters.fetch p).calls _ _ at hgives
  rw [InlineFilters.calls_fetch] at hgives
  obtain ⟨o, rfl, -⟩ := Dialogue.gives_ask_done.1 hgives
  obtain ⟨c, hc, hrequest⟩ := hspells.exists_call e he
  obtain rfl := List.mem_singleton.1 hc
  obtain ⟨u, -, hu⟩ := Client.eq_of_request? hrequest
  exact ⟨hrequest, congrArg Request.method hu⟩

/-- **and changes nothing.** -/
theorem lists_of_fetch {l l' : Lists} {log : List AnsweredCall}
    {r : Except ResourceError (Option (List String))}
    (h : Gives (InlineFilters.fetch p).calls log r) (hpasses : Passes Lists.MayLose l log l') :
    l' = l := by
  rw [InlineFilters.calls_fetch] at h
  obtain ⟨o, rfl, -⟩ := Dialogue.gives_ask_done.1 h
  simp only [Dialogue.passes_cons, Dialogue.passes_nil] at hpasses
  obtain ⟨_, hread, rfl⟩ := hpasses
  exact hread.of_reading.1

/-- **The two views agree**, for every project. If the request for it is
answered by a record, in whatever form its list is there or missing, then
the set is null exactly if there is no id in the list, and otherwise the ids
of the list in the order of their bytes, each once; and the association of
an id is kept exactly if the id is in the set. If a set with an id in it was
written, and the server has put the list that was sent into its record, then
this is the set that both views show. If no id is declared, then nothing is
written: what is done is the look-up. -/
theorem views_agree (p : ProjectKey) :
    (∀ (client : Client) (get : Request) (body : List UInt8) (project : Project),
      client.request? p.reading = some get →
      (Project.codec p.kind).ofBytes body = .ok project →
        ∃ shown, Rising shown ∧ (∀ id, id ∈ shown ↔ id ∈ project.filterIds) ∧
          Shows client p (get, .ok (.ok, body)) shown) ∧
    (∀ (client : Client) (patch : Request) (declared : List String) (h : Rising declared),
      declared ≠ [] → client.request? (p.writing ⟨declared, h.nodup⟩) = some patch →
        ∃ sent, patch.listing? = some sent ∧
          ∀ (members : List (String × Json)) (s : String), ProjectRecord p.kind sent members →
            Document (.object members) s.toList →
              client.Yields (InlineFilters.store p (some declared)).run
                (patch, .ok (.ok, Utf8.encode s)) (.ok (some declared)) ∧
              ∀ (reader : Client) (get : Request), reader.request? p.reading = some get →
                Shows reader p (get, .ok (.ok, Utf8.encode s)) declared) ∧
    ∀ declared : Option (List String), declared.getD [] = [] →
      InlineFilters.store p declared = InlineFilters.fetch p ∧
      (∀ (client : Client) (log : Http.Log) (r : Except ResourceError (Option (List String))),
        Gives (client.carryOut (InlineFilters.store p declared).run) log r →
          ∀ e ∈ exchanges log, client.request? p.reading = some e.1 ∧ e.1.method = .get) ∧
      ∀ (l l' : Lists) (log : List AnsweredCall) (r : Except ResourceError (Option (List String))),
        Gives (InlineFilters.store p declared).calls log r → Passes Lists.MayLose l log l' →
          l' = l := by
  refine ⟨?_, ?_, ?_⟩
  · intro client get body project hget hbody
    exact ⟨_, InlineFilters.rising_sorted _, fun _ => InlineFilters.mem_sorted,
      shows_of_record hget hbody⟩
  · intro client patch declared hrising hne hpatch
    refine ⟨_, listing?_writing hpatch, fun members s hrecord hs => ?_⟩
    exact ⟨yields_store hrising hrecord hs hne hpatch, fun reader get hget =>
      shows_written hrising hrecord hs hget⟩
  · intro declared hdeclared
    rw [InlineFilters.store_eq_fetch hdeclared]
    exact ⟨rfl, fun client log r hgives e he => request_of_fetch hgives he,
      fun l l' log r hgives hpasses => lists_of_fetch hgives hpasses⟩

end ProjectKey

namespace Doubled

def key : ProjectKey := ⟨.elasticsearch, "p"⟩

def get : Request := Sample.request .get ["projects", "elasticsearch", "p"] none

/-- A record with the ids in falling order, and one of them twice. -/
def body : List UInt8 :=
  Utf8.encode ("\x7b\"id\":\"p\",\"name\":\"n\",\"traffic_filters\":" ++
    "[\x7b\"id\":\"😀\"\x7d,\x7b\"id\":\"\uFFFD\"\x7d,\x7b\"id\":\"😀\"\x7d]\x7d")

def project : Project where
  id := "p"
  name := "n"
  filters := some [⟨"😀"⟩, ⟨"\uFFFD"⟩, ⟨"😀"⟩]

/-- The same ids in the order of their bytes. That of their units of sixteen
bits is the other one. -/
def declared : List String := ["\uFFFD", "😀"]

def patch : Request :=
  Sample.request .patch ["projects", "elasticsearch", "p"] <|
    some "\x7b\"traffic_filters\":[\x7b\"id\":\"\uFFFD\"\x7d,\x7b\"id\":\"😀\"\x7d]\x7d"

/-- The record after the set was written. -/
def members : List (String × Json) :=
  [("id", .text "p"), ("name", .text "n"), ("traffic_filters", listing declared)]

def text : String := String.ofList (Json.render .compact 0 (.object members))

theorem rising : Rising declared := by decide +kernel

theorem projectRecord : ProjectRecord key.kind (listing declared) members where
  texts := by simp [members]
  optional := by simp [members, key, ProjectKind.ownField]
  list := by simp [members]
  once := by decide +kernel

theorem document : Document (.object members) text.toList := by
  have hfree : Json.NumberFree (.object members) := by
    refine .object ?_
    simp only [members, List.forall_mem_cons]
    exact ⟨.text "p", .text "n", numberFree_listing declared, List.forall_mem_nil _⟩
  exact Json.document_render Json.Layout.blank_compact hfree

end Doubled

/-- **A list with an id twice, in falling order**, is shown as the set that
is written in its place; and without a set nothing is written. -/
theorem ProjectKey.views_agree_doubled :
    Sample.client.request? Doubled.key.reading = some Doubled.get ∧
      (Project.codec Doubled.key.kind).ofBytes Doubled.body = .ok Doubled.project ∧
      ProjectKey.Shows Sample.client Doubled.key (Doubled.get, .ok (.ok, Doubled.body))
        Doubled.declared ∧
      Sample.client.request? (Doubled.key.writing ⟨Doubled.declared, Doubled.rising.nodup⟩) =
        some Doubled.patch ∧
      Sample.client.Yields (InlineFilters.store Doubled.key (some Doubled.declared)).run
        (Doubled.patch, .ok (.ok, Utf8.encode Doubled.text)) (.ok (some Doubled.declared)) ∧
      ProjectKey.Shows Sample.client Doubled.key
        (Doubled.get, .ok (.ok, Utf8.encode Doubled.text)) Doubled.declared ∧
      InlineFilters.store Doubled.key (some []) = InlineFilters.fetch Doubled.key := by
  have hget : Sample.client.request? Doubled.key.reading = some Doubled.get := by decide +kernel
  have hbody : (Project.codec Doubled.key.kind).ofBytes Doubled.body = .ok Doubled.project := by
    decide +kernel
  have hpatch : Sample.client.request?
      (Doubled.key.writing ⟨Doubled.declared, Doubled.rising.nodup⟩) = some Doubled.patch := by
    decide +kernel
  obtain ⟨hread, hwritten, hnone⟩ := ProjectKey.views_agree Doubled.key
  obtain ⟨shown, hrising, hmem, hshows⟩ :=
    hread Sample.client Doubled.get Doubled.body Doubled.project hget hbody
  obtain rfl : shown = Doubled.declared := hrising.eq_of_mem_iff Doubled.rising fun id => by
    rw [hmem]
    simpa [Project.filterIds, Doubled.project, Doubled.declared, or_comm] using Or.inr
  obtain ⟨sent, hsent, hback⟩ :=
    hwritten Sample.client Doubled.patch Doubled.declared Doubled.rising (by decide) hpatch
  obtain rfl : sent = listing Doubled.declared :=
    Option.some.inj (hsent.symm.trans (ProjectKey.listing?_writing hpatch))
  obtain ⟨hyields, hafter⟩ := hback Doubled.members Doubled.text Doubled.projectRecord
    Doubled.document
  exact ⟨hget, hbody, hshows, hpatch, hyields, hafter Sample.client Doubled.get hget,
    (hnone (some []) rfl).1⟩

end TrafficGate
