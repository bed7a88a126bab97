import TrafficGate.Proofs.Association.Lifecycle
import TrafficGate.Proofs.Client.Exchanges
import TrafficGate.Proofs.Client.Sample
/-!
# What goes over the wire for an association

Every operation on an association has one course of requests, whatever the
server answers. Nothing is sent where there is nothing to ask; a read is
one GET of its project; a create and a delete are one GET, and then one
PATCH of the same URL exactly where the answer was a project whose list
does not have the entry as it is wanted (`requests_of_operation`). What the
PATCH sends is that list, each id once, with the one entry changed.

A request that the client repeats is one request here: `OneCall` holds what
a single call puts on the wire.
-/

namespace TrafficGate

open Dialogue (Gives)
open Http (exchanges)

/-- The ids of the list of a project, as the record has them. -/
def Project.filterIds (project : Project) : List String :=
  (project.filters.getD []).map FilterRef.id

/-- The text that sends a list. Its one field is a list even if there are no
ids. -/
def listText (ids : List String) : String :=
  (Json.object [("traffic_filters", .list (ids.map fun id => .object [("id", .text id)]))]).compact

/-! ## One call -/

/-- What one call puts on the wire: the same request, sent as often as it
takes, or nothing if none can be sent. -/
structure OneCall (client : Client) (c : Call) (wire : List (Request × Exchange)) : Prop where
  performed : ∃ log o, Gives (client.perform c) log o ∧ exchanges log = wire
  requests : match client.request? c with
    | some r => wire ≠ [] ∧ ∀ e ∈ wire, e.1 = r
    | none => wire = []

theorem Client.oneCall_of_gives {client : Client} {c : Call} {log : Http.Log} {o : c.Outcome}
    (h : Gives (client.perform c) log o) : OneCall client c (exchanges log) where
  performed := ⟨log, o, h, rfl⟩
  requests := by
    rcases Client.gives_perform h with ⟨hnone, hwire, -⟩ | ⟨r, earlier, x, hr, hwire, -⟩
    · rw [hnone]
      exact hwire
    · rw [hr]
      refine ⟨by simp [hwire], fun e he => ?_⟩
      exact Option.some.inj ((Client.request?_of_mem h he).symm.trans hr)

namespace ProjectKey

variable {client : Client} {p : ProjectKey} {wire : List (Request × Exchange)}

/-- The URL of a project, if requests can be sent to it. -/
def url? (client : Client) (p : ProjectKey) : Option Url :=
  match Client.url client.endpoint ["projects", p.kind.name, p.id] with
  | .ok u =>
    if Client.unsendable? ⟨.get, u, "ApiKey " ++ client.apiKey, none⟩ = none then some u else none
  | .error _ => none

/-- Whether a request can be sent does not depend on what it asks for. -/
theorem request?_eq (client : Client) (p : ProjectKey) {c : Call}
    (hsegments : c.segments = ["projects", p.kind.name, p.id]) :
    client.request? c = (p.url? client).map fun u =>
      { method := c.method
        url := u
        authorization := "ApiKey " ++ client.apiKey
        body := c.body?.map Json.compact } := by
  unfold Client.request? Client.request url?
  rw [hsegments]
  cases Client.url client.endpoint ["projects", p.kind.name, p.id] with
  | error e => rfl
  | ok u =>
    change (if Client.unsendable? _ = none then _ else _) = _
    simp only [Client.unsendable?]
    split <;> simp_all

/-- **A read is a GET of the project**, -/
theorem request?_reading (client : Client) (p : ProjectKey) :
    client.request? p.reading = (p.url? client).map fun u =>
      ⟨.get, u, "ApiKey " ++ client.apiKey, none⟩ :=
  p.request?_eq client rfl

/-- **and a write is a PATCH of the same URL**, with the list as its one
field. -/
theorem request?_writing (client : Client) (p : ProjectKey) (m : Membership) :
    client.request? (p.writing m) = (p.url? client).map fun u =>
      ⟨.patch, u, "ApiKey " ++ client.apiKey, some (listText m.ids)⟩ := by
  have hbody : (p.writing m).body?.map Json.compact = some (listText m.ids) := by
    change some (Json.compact _) = _
    simp [listText, ProjectPatch.toJson, Json.Codec.orNull, Json.Codec.listOf,
      Membership.toFilters, FilterRef.codec, Function.comp_def]
  rw [← hbody]
  exact p.request?_eq client rfl

/-! ## What a read is answered -/

/-- The last answer on the wire is a status of 200 and a body that is read
as this project. -/
def Answered (p : ProjectKey) (wire : List (Request × Exchange)) (project : Project) : Prop :=
  ∃ request body, wire.getLast? = some (request, .ok (.ok, body)) ∧
    (Project.codec p.kind).ofBytes body = .ok project

/-- A message reports a membership where it is a project, and no other
message does. -/
theorem reported_interpret {raw : RawResponse} {m : Membership} :
    p.reported .readProject (Client.interpret p.reading raw) = .ok m ↔
      raw.1 = .ok ∧ ∃ project, (Project.codec p.kind).ofBytes raw.2 = .ok project ∧
        m = .ofIds project.filterIds := by
  constructor
  · intro h
    cases hraw : Client.interpret p.reading raw with
    | error e => simp [hraw, reported] at h
    | ok r =>
      simp only [hraw, reported, membershipOf] at h
      rcases Client.of_interpret hraw with rfl | ⟨codec, project, hcodec, hstatus, hbody, rfl⟩
      · simp only at h
        split at h <;> cases h
      · obtain rfl := Option.some.inj hcodec
        have hok : raw.1 ≠ .notFound := by
          rw [show raw.1 = .ok from hstatus]
          decide
        simp only [hok, if_false] at h
        exact ⟨hstatus, project, hbody, (Except.ok.inj h).symm⟩
  · rintro ⟨hstatus, project, hbody, rfl⟩
    have hok : raw.1 ≠ .notFound := by
      rw [hstatus]
      decide
    rw [Client.interpret_of_ofBytes_ok (c := p.reading) rfl hstatus hbody]
    simp only [reported, membershipOf, hok, if_false]
    rfl

/-- **A membership is read exactly from an answer that is a project.** -/
theorem reported_iff_answered {log : Http.Log} {o : p.reading.Outcome} {m : Membership}
    (h : Gives (client.perform p.reading) log o) :
    p.reported .readProject o = .ok m ↔
      ∃ project, p.Answered (exchanges log) project ∧ m = .ofIds project.filterIds := by
  rcases Client.gives_perform h with ⟨-, hwire, e, rfl⟩ | ⟨r, earlier, x, -, hwire, rfl⟩
  · -- nothing was sent, so nothing was answered
    simp [Answered, hwire, reported]
  · cases x with
    | error fault => simp [Answered, hwire, reported, Client.understood]
    | ok raw =>
      obtain ⟨status, body⟩ := raw
      rw [Client.understood, reported_interpret]
      simp only [Answered, hwire, List.getLast?_concat, Option.some.injEq, Prod.mk.injEq,
        Except.ok.injEq]
      constructor
      · rintro ⟨rfl, project, hbody, rfl⟩
        exact ⟨project, ⟨r, body, ⟨rfl, rfl, rfl⟩, hbody⟩, rfl⟩
      · rintro ⟨project, ⟨_, _, ⟨-, rfl, rfl⟩, hbody⟩, rfl⟩
        exact ⟨rfl, project, hbody, rfl⟩

/-- A project that answered was asked for, so its URL can be reached. -/
theorem exists_url_of_answered {project : Project} (hcall : OneCall client p.reading wire)
    (h : p.Answered wire project) : ∃ u, p.url? client = some u := by
  cases hurl : p.url? client with
  | some u => exact ⟨u, rfl⟩
  | none =>
    have hnone := hcall.requests
    rw [request?_reading, hurl] at hnone
    obtain ⟨request, body, hlast, -⟩ := h
    simp [show wire = [] from hnone] at hlast

end ProjectKey

/-! ## One operation -/

/-- **The requests that settle an entry**: one read of the project, and then
one write if the answer was a project whose ids do not satisfy `right`. What
is written are these ids, each once, with a change. -/
def ReadsThenWrites (client : Client) (p : ProjectKey) (right : List String → Prop)
    (change : List String → List String) (wire : List (Request × Exchange)) : Prop :=
  ∃ gets, OneCall client p.reading gets ∧
    ((∃ project patches target, p.Answered gets project ∧ ¬ right project.filterIds ∧
        target.ids = change (Membership.firsts project.filterIds) ∧
        OneCall client (p.writing target) patches ∧ patches ≠ [] ∧ wire = gets ++ patches) ∨
      (∀ project, p.Answered gets project → right project.filterIds) ∧ wire = gets)

namespace Settling

variable {client : Client} {p : ProjectKey} {s : Settling}
  {r : Except ResourceError (Transition × Diagnostics)}

theorem reflected_firsts {ids : List String} :
    s.Reflected (Membership.firsts ids) ↔ s.Reflected ids := by
  obtain ⟨_ | _, f⟩ := s
  · exact Membership.mem_firsts
  · exact not_congr Membership.mem_firsts

/-- **An attempt reads, and writes exactly where the entry is not as it is
wanted.** -/
theorem readsThenWrites {answered : List AnsweredCall} {wire : List (Request × Exchange)}
    (hgives : Gives (s.attempt p).calls answered r) (hspells : client.Spells answered wire) :
    ReadsThenWrites client p s.Reflected s.edit wire := by
  rcases gives_attempt.1 hgives with ⟨o, rfl, hstage⟩ | ⟨o, target, o', rfl, hstage, -⟩
  · obtain ⟨gets, hread, rfl⟩ := Client.spells_singleton.1 hspells
    refine ⟨_, Client.oneCall_of_gives hread, .inr ⟨?_, rfl⟩⟩
    intro project hproject
    by_contra hright
    -- the write would have been due
    have hreported := (ProjectKey.reported_iff_answered hread).2 ⟨project, hproject, rfl⟩
    rw [afterReading_of_reported hreported] at hstage
    cases htarget : s.target? (.ofIds project.filterIds) with
    | none => exact hright (reflected_firsts.1 (target?_eq_none_iff.1 htarget))
    | some target => simp [htarget] at hstage
  · obtain ⟨gets, rest, hread, hrest, rfl⟩ := Client.spells_cons.1 hspells
    obtain ⟨patches, hwrite, rfl⟩ := Client.spells_singleton.1 hrest
    have hget := Client.oneCall_of_gives hread
    have hpatch := Client.oneCall_of_gives hwrite
    obtain ⟨m, hm, htarget⟩ := afterReading_eq_due hstage
    obtain ⟨project, hproject, rfl⟩ := (ProjectKey.reported_iff_answered hread).1 hm
    have hright : ¬ s.Reflected project.filterIds := fun hright =>
      not_reflected_of_target? htarget (reflected_firsts.2 hright)
    have hsent : exchanges patches ≠ [] := by
      obtain ⟨u, hu⟩ := ProjectKey.exists_url_of_answered hget hproject
      have hrequests := hpatch.requests
      rw [p.request?_writing, hu] at hrequests
      exact hrequests.1
    exact ⟨_, hget, .inl ⟨project, _, target, hproject, hright, ids_of_target? htarget,
      hpatch, hsent, rfl⟩⟩

end Settling

/-- An operation that has nothing to ask of the server: there is no client,
or the kind of the project is unknown, or there are problems with the plan,
or nothing is tracked. An update and an import never ask for anything. -/
def Operation.Silent (configured : Bool) (before : Option Association)
    (op : Operation Association) : Prop :=
  configured = false ∨
  match op with
  | .create plan => plan.validate ≠ [] ∨ plan.project? = none
  | .read => ∀ tracked, before = some tracked → tracked.project? = none
  | .delete => ∀ tracked, before = some tracked → tracked.project? = none
  | .update _ => True
  | .importState _ => True

namespace AssociationResource

variable {client : Client} {configured : Bool} {op : Operation Association}
  {before : Option Association} {log : Http.Log} {out : Outcome Association}

theorem calls_of_silent (h : op.Silent configured before) :
    ∃ out, ((associationResource configured).carryOut before op).calls = .done out := by
  cases op with
  | create plan =>
    rcases calls_create configured plan before with ⟨ds, -, hcalls⟩ | ⟨hc, hv, p, hp, -⟩
    · exact ⟨_, hcalls⟩
    · simp [Operation.Silent, hc, hv, hp] at h
  | read =>
    obtain _ | tracked := before
    · exact ⟨_, rfl⟩
    rcases calls_read configured tracked with ⟨e, hcalls⟩ | ⟨hc, p, hp, -⟩
    · exact ⟨_, hcalls⟩
    · simp [Operation.Silent, hc, hp] at h
  | delete =>
    obtain _ | tracked := before
    · exact ⟨_, rfl⟩
    rcases calls_delete configured tracked with ⟨e, hcalls⟩ | ⟨hc, p, hp, -⟩
    · exact ⟨_, hcalls⟩
    · simp [Operation.Silent, hc, hp] at h
  | update plan => exact ⟨_, rfl⟩
  | importState key => exact ⟨_, rfl⟩

/-- **The requests of an operation**, whatever is answered. With nothing to
ask, nothing is sent. A read is one GET of the project of the declared kind
and id. A create and a delete are one GET of it, and one PATCH of the same
URL if and only if the GET was answered by a project whose ids do not hold
the one of the create, or hold the one of the delete. The PATCH sends the
ids of that answer, each at its first place, with the one added at the end
or left out. -/
theorem requests_of_operation
    (h : Gives (client.carryOut ((associationResource configured).carryOut before op)) log out) :
    (op.Silent configured before → exchanges log = []) ∧
    (∀ (a : Association) (p : ProjectKey), configured = true → a.project? = some p →
      (op = .read → before = some a → OneCall client p.reading (exchanges log)) ∧
      (op = .create a → a.validate = [] →
        ReadsThenWrites client p (a.filterId ∈ ·) (· ++ [a.filterId]) (exchanges log)) ∧
      (op = .delete → before = some a →
        ReadsThenWrites client p (a.filterId ∉ ·) (fun ids => ids.filter (· ≠ a.filterId))
          (exchanges log))) ∧
    (∀ p : ProjectKey,
      client.request? p.reading = (p.url? client).map (fun u =>
        ⟨.get, u, "ApiKey " ++ client.apiKey, none⟩) ∧
      ∀ m, client.request? (p.writing m) = (p.url? client).map fun u =>
        ⟨.patch, u, "ApiKey " ++ client.apiKey, some (listText m.ids)⟩) := by
  obtain ⟨answered, hgives, hspells⟩ := Client.gives_carryOut h
  refine ⟨?_, ?_, fun p => ⟨p.request?_reading client, p.request?_writing client⟩⟩
  · intro hsilent
    obtain ⟨out', hcalls⟩ := calls_of_silent hsilent
    rw [hcalls] at hgives
    obtain ⟨rfl, -⟩ := Dialogue.gives_done.1 hgives
    exact Client.spells_nil.1 hspells
  rintro a p rfl hp
  refine ⟨?_, ?_, ?_⟩
  · rintro rfl rfl
    have hcalls := calls_read_of_project? hp
    change Gives (read true (some a)).calls _ _ at hgives
    rw [hcalls] at hgives
    obtain ⟨o, rfl, -⟩ := Dialogue.gives_ask_done.1 hgives
    obtain ⟨gets, hread, hwire⟩ := Client.spells_singleton.1 hspells
    rw [hwire]
    exact Client.oneCall_of_gives hread
  · rintro rfl hv
    change Gives (create true a before).calls _ _ at hgives
    rw [calls_create_of_project? hv hp] at hgives
    obtain ⟨r, hattempt, -⟩ := Dialogue.gives_bind_done.1 hgives
    exact Settling.readsThenWrites hattempt hspells
  · rintro rfl rfl
    change Gives (delete true (some a)).calls _ _ at hgives
    rw [calls_delete_of_project? hp] at hgives
    obtain ⟨r, hattempt, -⟩ := Dialogue.gives_bind_done.1 hgives
    exact Settling.readsThenWrites hattempt hspells

end AssociationResource

namespace Joined

def plan : Association :=
  { projectId := "p", projectType := "security", filterId := "a" }

/-- The project as it is read, with an id twice. -/
def body : List UInt8 :=
  Utf8.encode ("\x7b\"id\":\"p\",\"name\":\"n\"," ++
    "\"traffic_filters\":[\x7b\"id\":\"b\"\x7d,\x7b\"id\":\"b\"\x7d]\x7d")

def get : Request := Sample.request .get ["projects", "security", "p"] none

def patch : Request :=
  Sample.request .patch ["projects", "security", "p"] <|
    some "\x7b\"traffic_filters\":[\x7b\"id\":\"b\"\x7d,\x7b\"id\":\"a\"\x7d]\x7d"

/-- The read is repeated once, and the write is refused. -/
def log : Http.Log :=
  [⟨.exchange get, (.ok ({ code := 502 }, []) : Exchange)⟩,
    ⟨.count (Metric.requestDuration.labelled "method" "GET"), ()⟩,
    ⟨.count Metric.requestRetry.sample, ()⟩,
    ⟨.pause 500, ()⟩,
    ⟨.exchange get, (.ok (.ok, body) : Exchange)⟩,
    ⟨.count (Metric.requestDuration.labelled "method" "GET"), ()⟩,
    ⟨.exchange patch, (.ok (.notFound, []) : Exchange)⟩,
    ⟨.count (Metric.requestDuration.labelled "method" "PATCH"), ()⟩]

def out : Outcome Association :=
  ⟨none, [(ResourceError.projectNotFound .security "p").diagnostic]⟩

end Joined

/-- **One read, repeated once, and one write** of the two ids that are then
to be in the list. -/
theorem AssociationResource.requests_of_operation_joined :
    Gives (Sample.client.carryOut
      ((associationResource true).carryOut none (.create Joined.plan))) Joined.log Joined.out ∧
    ReadsThenWrites Sample.client ⟨.security, "p"⟩ ("a" ∈ ·) (· ++ ["a"])
      [(Joined.get, .ok ({ code := 502 }, [])), (Joined.get, .ok (.ok, Joined.body)),
        (Joined.patch, .ok (.notFound, []))] := by
  have hgives : Gives (Sample.client.carryOut
      ((associationResource true).carryOut none (.create Joined.plan))) Joined.log Joined.out := by
    decide +kernel
  obtain ⟨-, hrequests, -⟩ := AssociationResource.requests_of_operation hgives
  obtain ⟨-, hcreate, -⟩ := hrequests Joined.plan ⟨.security, "p"⟩ rfl rfl
  exact ⟨hgives, hcreate rfl rfl⟩

end TrafficGate
