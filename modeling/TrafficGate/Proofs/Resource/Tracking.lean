import TrafficGate.Proofs.Association.Lifecycle
import TrafficGate.Proofs.Client.Exchanges
import TrafficGate.Proofs.Client.Sample
import TrafficGate.Proofs.Filter.Lifecycle
/-!
# What is tracked after an operation

An operation that reports an error leaves what is tracked alone, and a
read forgets nothing without evidence. `Operation.Respects` says this of
an operation and its outcome, with the evidence as a parameter. It is
shown for logs of calls first, where the evidence is a response, and then
over HTTP, where it is the last thing that came over the wire.
-/

namespace TrafficGate

open Dialogue (Gives)

/-! ## The law -/

namespace Operation

variable {M : Type} {op : Operation M} {gone gone' : M → Prop} {before : Option M}
  {out : Outcome M}

/-- What is tracked after an operation that went well. Only a read may
drop what was tracked, and then it is `gone`. -/
def Concluded (gone : M → Prop) (before after : Option M) : Operation M → Prop
  | .create _ => after.isSome = true
  | .read => ∀ tracked, before = some tracked → after = none → gone tracked
  | .update _ => after.isSome = true
  | .delete => after = none
  | .importState _ => after.isSome = true

/-- An outcome that loses nothing by an error, and concludes the operation
if there is none. -/
structure Respects (op : Operation M) (gone : M → Prop) (before : Option M) (out : Outcome M) :
    Prop where
  unchanged : out.diagnostics.hasError = true → out.state = before
  concluded : out.diagnostics.hasError = false → op.Concluded gone before out.state

/-- An error that leaves what is tracked alone respects it. -/
theorem Respects.of_error {ds : Diagnostics} (h : ds.hasError = true) :
    op.Respects gone before ⟨before, ds⟩ where
  unchanged _ := rfl
  concluded hnone := absurd h (by simp [hnone])

/-- An error that ends an operation leaves what is tracked alone. -/
theorem Respects.of_failure (e : ResourceError) :
    op.Respects gone before ⟨before, [e.diagnostic]⟩ :=
  .of_error (by simp)

/-- So does a success that ends as the operation has to. -/
theorem Respects.of_success {after : Option M} {ds : Diagnostics} (h : ds.hasError = false)
    (hafter : op.Concluded gone before after) : op.Respects gone before ⟨after, ds⟩ where
  unchanged hsome := absurd h (by simp [hsome])
  concluded _ := hafter

/-- A failed attempt respects what is tracked, so the other outcomes
decide. -/
theorem Respects.orError {α : Type} {f : α → Outcome M} {r : Except ResourceError α}
    (h : ∀ a, r = .ok a → op.Respects gone before (f a)) :
    op.Respects gone before (Outcome.orError before f r) := by
  cases r with
  | ok a => exact h a rfl
  | error e => exact .of_failure e

/-- **Evidence may be read in other terms.** -/
theorem Respects.mono (h : op.Respects gone before out)
    (hgone : ∀ tracked, gone tracked → gone' tracked) : op.Respects gone' before out where
  unchanged := h.unchanged
  concluded hnone := by
    have hafter := h.concluded hnone
    cases op with
    | read => exact fun tracked hbefore hstate => hgone tracked (hafter tracked hbefore hstate)
    | create plan => exact hafter
    | update plan => exact hafter
    | delete => exact hafter
    | importState key => exact hafter

end Operation

open Operation (Respects)

/-! ## Filters -/

namespace FilterResource

variable {configured : Bool} {op : Operation FilterModel} {before : Option FilterModel}
  {out : Outcome FilterModel}

/-- The only call was the read of the filter, and its response is that
there is none. -/
def Unknown (log : List AnsweredCall) (tracked : FilterModel) : Prop :=
  ∃ (id : String) (r : Response FilterInfo), tracked.id = some id ∧ r.status = .notFound ∧
    log = [⟨.getFilter id, .ok r⟩]

/-- To track what the API reports is to track something. -/
theorem respects_recorded {gone : FilterModel → Prop}
    (hop : ∀ m, op.Concluded gone before (some m)) (r : Except ResourceError FilterInfo) :
    op.Respects gone before (recorded before r) :=
  .orError fun _ _ => .of_success rfl (hop _)

/-- A create respects what is tracked. -/
theorem respects_create {plan : FilterModel} {log : List AnsweredCall}
    (h : Gives (create configured plan before).calls log out) :
    (Operation.create plan).Respects (Unknown log) before out := by
  rcases calls_create configured plan before with ⟨ds, hds, hcalls⟩ | ⟨-, -, hcalls⟩
  · rw [hcalls] at h
    obtain ⟨-, rfl⟩ := Dialogue.gives_done.1 h
    exact .of_error hds
  · rw [hcalls] at h
    obtain ⟨o, rfl, rfl⟩ := Dialogue.gives_ask_done.1 h
    exact .orError fun r _ => respects_recorded (fun m => by simp [Operation.Concluded]) _

/-- A read drops it on the evidence of its answer only. -/
theorem respects_read {log : List AnsweredCall}
    (h : Gives (read configured before).calls log out) :
    Operation.read.Respects (Unknown log) before out := by
  obtain _ | tracked := before
  · obtain ⟨-, rfl⟩ := Dialogue.gives_done.1 h
    exact .of_success rfl (by simp [Operation.Concluded])
  rcases calls_read configured tracked with ⟨e, hcalls⟩ | ⟨-, id, hid, hcalls⟩
  · rw [hcalls] at h
    obtain ⟨-, rfl⟩ := Dialogue.gives_done.1 h
    exact .of_failure e
  rw [hcalls] at h
  obtain ⟨o, rfl, rfl⟩ := Dialogue.gives_ask_done.1 h
  refine .orError fun r hreceived => ?_
  unfold readBack
  split
  · rename_i hr
    refine .of_success rfl ?_
    rintro _ ⟨⟩ -
    exact ⟨id, r, hid, hr, by rw [Attempt.received_eq_ok hreceived]⟩
  · exact respects_recorded (fun m => by simp [Operation.Concluded]) _

/-- An update never drops it. -/
theorem respects_update {plan : FilterModel} {log : List AnsweredCall}
    (h : Gives (update configured plan before).calls log out) :
    (Operation.update plan).Respects (Unknown log) before out := by
  rcases calls_update configured plan before with
    ⟨ds, hds, hcalls⟩ | ⟨-, tracked, rfl, -, hcalls⟩ |
      ⟨-, -, tracked, id, rfl, -, -, -, hcalls⟩
  · rw [hcalls] at h
    obtain ⟨-, rfl⟩ := Dialogue.gives_done.1 h
    exact .of_error hds
  · rw [hcalls] at h
    obtain ⟨-, rfl⟩ := Dialogue.gives_done.1 h
    exact .of_success rfl rfl
  · rw [hcalls] at h
    obtain ⟨o, rfl, rfl⟩ := Dialogue.gives_ask_done.1 h
    refine .orError fun r _ => ?_
    unfold updated
    split
    · exact .of_failure _
    · exact respects_recorded (fun m => by simp [Operation.Concluded]) _

/-- A delete drops it only once the filter is gone. -/
theorem respects_delete {log : List AnsweredCall}
    (h : Gives (delete configured before).calls log out) :
    Operation.delete.Respects (Unknown log) before out := by
  obtain _ | tracked := before
  · obtain ⟨-, rfl⟩ := Dialogue.gives_done.1 h
    exact .of_success rfl rfl
  rcases calls_delete configured tracked with ⟨e, hcalls⟩ | ⟨-, id, -, hcalls⟩
  · rw [hcalls] at h
    obtain ⟨-, rfl⟩ := Dialogue.gives_done.1 h
    exact .of_failure e
  rw [hcalls] at h
  obtain ⟨o, rfl, rfl⟩ := Dialogue.gives_ask_done.1 h
  refine .orError fun r _ => ?_
  unfold deleted
  split
  · exact .of_success rfl rfl
  · exact .of_failure _

/-- **An operation on a filter respects what is tracked**, whatever comes
of its calls. -/
theorem respects_carryOut {log : List AnsweredCall}
    (h : Gives ((filterResource configured).carryOut before op).calls log out) :
    op.Respects (Unknown log) before out := by
  cases op with
  | create plan => exact respects_create h
  | read => exact respects_read h
  | update plan => exact respects_update h
  | delete => exact respects_delete h
  | importState key =>
    obtain ⟨-, rfl⟩ := Dialogue.gives_done.1 h
    exact .of_success rfl rfl

end FilterResource

/-! ## Associations -/

namespace AssociationResource

variable {configured : Bool} {op : Operation Association} {before : Option Association}
  {out : Outcome Association}

/-- The only call was the read of the project, and its response is that
there is none, or a project without the entry. -/
def Unlisted (log : List AnsweredCall) (tracked : Association) : Prop :=
  ∃ (p : ProjectKey) (r : Response Project), tracked.project? = some p ∧
    log = [⟨p.reading, .ok r⟩] ∧
    (r.status = .notFound ∨ ∃ project, r.payload = some project ∧
      tracked.filterId ∉ (project.filters.getD []).map FilterRef.id)

/-- A create of an association respects what is tracked. -/
theorem respects_create {plan : Association} {log : List AnsweredCall}
    (h : Gives (create configured plan before).calls log out) :
    (Operation.create plan).Respects (Unlisted log) before out := by
  rcases calls_create configured plan before with ⟨ds, hds, hcalls⟩ | ⟨-, -, p, -, hcalls⟩
  · rw [hcalls] at h
    obtain ⟨-, rfl⟩ := Dialogue.gives_done.1 h
    exact .of_error hds
  · rw [hcalls] at h
    obtain ⟨r, hattempt, rfl⟩ := Dialogue.gives_bind_done.1 h
    refine .orError fun v hv => .of_success ?_ rfl
    exact Settling.hasError_of_gives (hv ▸ hattempt)

/-- What a read of the project shows of an association. -/
theorem respects_readBack {tracked : Association} {p : ProjectKey} {o : p.reading.Outcome}
    (hp : tracked.project? = some p) :
    Operation.read.Respects (Unlisted [⟨p.reading, o⟩]) (some tracked)
      (readBack tracked (p.reported .readProject o)) := by
  obtain e | r := o
  · exact .of_failure _
  by_cases hr : r.status = .notFound
  · simp only [ProjectKey.reported, ProjectKey.membershipOf, hr, if_true]
    refine .of_success rfl ?_
    rintro _ ⟨⟩ -
    exact ⟨p, r, hp, rfl, .inl hr⟩
  cases hpayload : r.payload with
  | none =>
    simp only [ProjectKey.reported, ProjectKey.membershipOf, hr, hpayload, if_false]
    exact .of_failure _
  | some project =>
    simp only [ProjectKey.reported, ProjectKey.membershipOf, hr, hpayload, if_false, readBack]
    refine .of_success rfl ?_
    rintro _ ⟨⟩ hstate
    refine ⟨p, r, hp, rfl, .inr ⟨project, hpayload, ?_⟩⟩
    simpa [Membership.contains, Membership.ofFilters, Membership.ofIds, Membership.mem_firsts]
      using hstate

/-- A read of one drops it on the evidence of its answer only. -/
theorem respects_read {log : List AnsweredCall}
    (h : Gives (read configured before).calls log out) :
    Operation.read.Respects (Unlisted log) before out := by
  obtain _ | tracked := before
  · obtain ⟨-, rfl⟩ := Dialogue.gives_done.1 h
    exact .of_success rfl (by simp [Operation.Concluded])
  rcases calls_read configured tracked with ⟨e, hcalls⟩ | ⟨-, p, hp, hcalls⟩
  · rw [hcalls] at h
    obtain ⟨-, rfl⟩ := Dialogue.gives_done.1 h
    exact .of_failure e
  rw [hcalls] at h
  obtain ⟨o, rfl, rfl⟩ := Dialogue.gives_ask_done.1 h
  exact respects_readBack hp

/-- A delete of one drops it only once the filter is off the list. -/
theorem respects_delete {log : List AnsweredCall}
    (h : Gives (delete configured before).calls log out) :
    Operation.delete.Respects (Unlisted log) before out := by
  obtain _ | tracked := before
  · obtain ⟨-, rfl⟩ := Dialogue.gives_done.1 h
    exact .of_success rfl rfl
  rcases calls_delete configured tracked with ⟨e, hcalls⟩ | ⟨-, p, -, hcalls⟩
  · rw [hcalls] at h
    obtain ⟨-, rfl⟩ := Dialogue.gives_done.1 h
    exact .of_failure e
  · rw [hcalls] at h
    obtain ⟨r, hattempt, rfl⟩ := Dialogue.gives_bind_done.1 h
    refine .orError fun v hv => .of_success ?_ rfl
    exact Settling.hasError_of_gives (hv ▸ hattempt)

/-- **So does an operation on an association.** -/
theorem respects_carryOut {log : List AnsweredCall}
    (h : Gives ((associationResource configured).carryOut before op).calls log out) :
    op.Respects (Unlisted log) before out := by
  cases op with
  | create plan => exact respects_create h
  | read => exact respects_read h
  | update plan =>
    obtain ⟨-, rfl⟩ := Dialogue.gives_done.1 h
    exact .of_failure _
  | delete => exact respects_delete h
  | importState key =>
    obtain ⟨-, rfl⟩ := Dialogue.gives_done.1 h
    change (Operation.importState key).Respects _ _ (importState key before)
    unfold importState
    split
    · exact .of_success rfl rfl
    · exact .of_failure _

end AssociationResource

/-! ## Over HTTP -/

section Http

open Http (exchanges)

variable {client : Client}

/-- The last thing that came over the wire: the answer to the read of the
filter, with status 404. -/
def FilterResource.Missing (client : Client) (log : Http.Log) (tracked : FilterModel) : Prop :=
  ∃ (id : String) (request : Request) (body : List UInt8), tracked.id = some id ∧
    client.request (.getFilter id) = .ok request ∧
    (exchanges log).getLast? = some (request, .ok (.notFound, body))

/-- The last thing that came over the wire: the answer to the read of the
project, with status 404, or with status 200 and a project that does not
list the filter. -/
def AssociationResource.Missing (client : Client) (log : Http.Log) (tracked : Association) :
    Prop :=
  ∃ (p : ProjectKey) (request : Request) (status : Status) (body : List UInt8),
    tracked.project? = some p ∧ client.request p.reading = .ok request ∧
    (exchanges log).getLast? = some (request, .ok (status, body)) ∧
    (status = .notFound ∨ status = .ok ∧ ∃ project,
      (Project.codec p.kind).ofBytes body = .ok project ∧
      tracked.filterId ∉ (project.filters.getD []).map FilterRef.id)

/-- The evidence against a filter is the last exchange. -/
theorem FilterResource.missing_of_unknown {answered : List AnsweredCall} {log : Http.Log}
    {tracked : FilterModel} (hspells : client.Spells answered (exchanges log))
    (h : Unknown answered tracked) : Missing client log tracked := by
  obtain ⟨id, r, hid, hr, rfl⟩ := h
  obtain ⟨request, ⟨status, body⟩, hrequest, hlast, hraw⟩ := hspells.single
  obtain rfl : status = .notFound := (Client.status_of_interpret hraw).symm.trans hr
  exact ⟨id, request, body, hid, hrequest, hlast⟩

/-- The evidence against an association is the last exchange. -/
theorem AssociationResource.missing_of_unlisted {answered : List AnsweredCall} {log : Http.Log}
    {tracked : Association} (hspells : client.Spells answered (exchanges log))
    (h : Unlisted answered tracked) : Missing client log tracked := by
  obtain ⟨p, r, hp, rfl, hr⟩ := h
  obtain ⟨request, ⟨status, body⟩, hrequest, hlast, hraw⟩ := hspells.single
  refine ⟨p, request, status, body, hp, hrequest, hlast, ?_⟩
  rcases hr with hr | ⟨project, hpayload, hid⟩
  · exact .inl ((Client.status_of_interpret hraw).symm.trans hr)
  · -- there is a payload only where the body was read as a project
    rcases Client.of_interpret hraw with rfl | ⟨codec, payload, hcodec, hstatus, hbody, rfl⟩
    · cases hpayload
    · obtain rfl := Option.some.inj hcodec
      obtain rfl := Option.some.inj hpayload
      exact .inr ⟨hstatus, payload, hbody, hid⟩

/-- **Errors leave what is tracked alone, and nothing is dropped without
evidence.** For both resources, every operation, whatever was tracked and
whatever came over the wire. -/
theorem tracking_respected (client : Client) (configured : Bool) (log : Http.Log) :
    (∀ (op : Operation FilterModel) (before : Option FilterModel) (out : Outcome FilterModel),
      Gives (client.carryOut ((filterResource configured).carryOut before op)) log out →
      op.Respects (FilterResource.Missing client log) before out) ∧
    (∀ (op : Operation Association) (before : Option Association) (out : Outcome Association),
      Gives (client.carryOut ((associationResource configured).carryOut before op)) log out →
      op.Respects (AssociationResource.Missing client log) before out) := by
  constructor
  · intro op before out h
    obtain ⟨answered, hcalls, hspells⟩ := Client.gives_carryOut h
    exact (FilterResource.respects_carryOut hcalls).mono fun tracked =>
      FilterResource.missing_of_unknown hspells
  · intro op before out h
    obtain ⟨answered, hcalls, hspells⟩ := Client.gives_carryOut h
    exact (AssociationResource.respects_carryOut hcalls).mono fun tracked =>
      AssociationResource.missing_of_unlisted hspells

end Http

/-! ### A read that is repeated

The server is out of service at first and then does not know the project. -/

namespace Repeated

def tracked : Association :=
  { projectId := "p", projectType := "elasticsearch", filterId := "a" }

def request : Request := Sample.request .get ["projects", "elasticsearch", "p"] none

/-- Both answers, and what was counted and waited for. -/
def log : Http.Log :=
  [⟨.exchange request, (.ok ({ code := 503 }, []) : Exchange)⟩,
    ⟨.count (Metric.requestDuration.labelled "method" "GET"), ()⟩,
    ⟨.count Metric.requestRetry.sample, ()⟩,
    ⟨.pause 500, ()⟩,
    ⟨.exchange request, (.ok (.notFound, []) : Exchange)⟩,
    ⟨.count (Metric.requestDuration.labelled "method" "GET"), ()⟩,
    ⟨.count (Metric.membershipDrift.labelled "project_type" "elasticsearch"), ()⟩]

end Repeated

/-- **The association is dropped, and the last answer is why.** -/
theorem tracking_respected_repeated :
    Gives (Sample.client.carryOut
      ((associationResource true).carryOut (some Repeated.tracked) .read)) Repeated.log
      ⟨none, []⟩ ∧
    AssociationResource.Missing Sample.client Repeated.log Repeated.tracked := by
  have hgives : Gives (Sample.client.carryOut
      ((associationResource true).carryOut (some Repeated.tracked) .read)) Repeated.log
      ⟨none, []⟩ :=
    .cons (.cons (.cons (.cons (.cons (.cons (.cons .nil))))))
  have hread := (tracking_respected Sample.client true Repeated.log).2 .read
    (some Repeated.tracked) ⟨none, []⟩ hgives
  exact ⟨hgives, hread.concluded rfl Repeated.tracked rfl rfl⟩

end TrafficGate
