import TrafficGate.Proofs.Client.Exchanges
import TrafficGate.Proofs.Client.Sample
import TrafficGate.Proofs.Filter.Lifecycle
import TrafficGate.Proofs.Filter.Wire
/-!
# New filters, from the plan to what is tracked

A plan is sent as a request for a new filter, and what is tracked is rebuilt
from the answer. If the server answers with what it was sent, and an id
somewhere in it, nothing gets lost on the way: what is tracked is the plan
with this id (`create_records_plan`). The one difference is that an empty
description is tracked as none, so that a plan with one is never met.
-/

namespace TrafficGate

open Dialogue (Gives)
open Http (exchanges)
open MemoryServer (newFilter)

/-- An object with one more member, put at a place. -/
def Json.withMember (place : Nat) (key : String) (value : Json) : Json → Json
  | .object members => .object (members.take place ++ (key, value) :: members.drop place)
  | x => x

/-! ## The answer -/

/-- A body that gives back what was sent, with an id put at a place. -/
def FilterCreation.returned (c : FilterCreation) (layout : Json.Layout) (place : Nat)
    (id : String) : List UInt8 :=
  Utf8.encode (String.ofList
    (Json.render layout 0 (Json.withMember place "id" (.text id) c.toJson)))

/-- **It is read as the filter that was asked for.** -/
theorem FilterCreation.ofBytes_returned (c : FilterCreation) {layout : Json.Layout}
    (hlayout : layout.Blank) (place : Nat) (id : String) :
    FilterInfo.codec.ofBytes (c.returned layout place id) = .ok (newFilter c id) := by
  have hperm : (c.members.take place ++ ("id", .text id) :: c.members.drop place).Perm
      (("id", .text id) :: c.members) := by
    refine List.perm_middle.trans ?_
    rw [List.take_append_drop]
  rw [returned, toJson_eq]
  exact (FilterCreation.reads_newFilter hperm).ofBytes
    (Json.document_render hlayout (FilterCreation.numberFree_of_perm hperm))

/-! ## What is tracked -/

namespace FilterModel

variable {plan : FilterModel}

/-- What is tracked of a plan once there is a filter for it: an empty
description is none. -/
def made (plan : FilterModel) (id : String) : FilterModel :=
  { plan with
    id := some id
    description := if plan.description = some "" then none else plan.description }

theorem ofInfo_newFilter (hv : plan.validate = []) (id : String) :
    ofInfo (newFilter plan.creation id) = plan.made id := by
  have hdescription := description_ofInfo (newFilter plan.creation id)
  have hrules : (ofInfo (newFilter plan.creation id)).rules = plan.rules := by
    simp only [ofInfo, newFilter, creation, managedRules_eq hv]
    cases hr : plan.rules with
    | none => rfl
    | some rules =>
      have hne : rules ≠ [] := fun hnil => rules_ne_nil hv (hnil ▸ hr)
      simp [hne]
  change { plan with
    id := some id
    description := (ofInfo (newFilter plan.creation id)).description
    rules := (ofInfo (newFilter plan.creation id)).rules } = plan.made id
  rw [hdescription, hrules]
  rfl

/-- **A plan is met by what is made of it** unless its description is
empty. -/
theorem planChange_made (id : String) :
    plan.planChange (plan.made id) = .none ↔ plan.description ≠ some "" := by
  rw [planChange_eq_none_iff]
  by_cases h : plan.description = some ""
  · simp [made, h]
  · simp [made, h]

end FilterModel

namespace FilterResource

variable {plan : FilterModel} {layout : Json.Layout}

/-- What a create makes of the answer. -/
theorem created_returned (hv : plan.validate = []) (hlayout : layout.Blank) (place : Nat)
    (id : String) (state : Option FilterModel) :
    Outcome.orError state (created state) (Attempt.received .createFilter
      (Client.understood (.createFilter plan.creation)
        (.ok (.created, plan.creation.returned layout place id)))) =
      ⟨some (plan.made id), []⟩ := by
  have hread := plan.creation.ofBytes_returned hlayout place id
  have hpayload : Client.interpret (.createFilter plan.creation)
      (.created, plan.creation.returned layout place id) =
        .ok ⟨.created, some (newFilter plan.creation id),
          plan.creation.returned layout place id⟩ :=
    Client.interpret_of_ofBytes_ok rfl rfl hread
  rw [Client.understood, hpayload]
  have hrecorded : created state ⟨.created, some (newFilter plan.creation id),
      plan.creation.returned layout place id⟩ = ⟨some (.ofInfo (newFilter plan.creation id)), []⟩ :=
    rfl
  exact hrecorded.trans (by rw [FilterModel.ofInfo_newFilter hv])

/-- **A create records the plan.** A server that makes the filter and
answers with what it was sent, with an id put anywhere in it and in whatever
layout, is understood; what is then tracked is the plan with this id, its
rules in their order, and nothing is to be changed about it, unless the plan
has an empty description. -/
theorem create_records_plan (hv : plan.validate = []) (hlayout : layout.Blank) (place : Nat)
    (id : String) :
    (∃ info, FilterInfo.codec.ofBytes (plan.creation.returned layout place id) = .ok info) ∧
    (∀ (client : Client) (state : Option FilterModel) (log : Http.Log)
        (out : Outcome FilterModel) (request : Request),
      Gives (client.carryOut ((filterResource true).carryOut state (.create plan))) log out →
      (exchanges log).getLast? =
        some (request, .ok (.created, plan.creation.returned layout place id)) →
      request.body = some plan.creation.toJson.compact ∧ out = ⟨some (plan.made id), []⟩) ∧
    (∀ (client : Client) (state : Option FilterModel) (request : Request),
      client.request? (.createFilter plan.creation) = some request →
      ∃ log, Gives (client.carryOut ((filterResource true).carryOut state (.create plan))) log
          ⟨some (plan.made id), []⟩ ∧
        exchanges log =
          [(request, .ok (.created, plan.creation.returned layout place id))]) ∧
    (plan.planChange (plan.made id) = .none ↔ plan.description ≠ some "") := by
  refine ⟨⟨_, plan.creation.ofBytes_returned hlayout place id⟩, ?_, ?_, plan.planChange_made id⟩
  · intro client state log out request hgives hlast
    obtain ⟨hrequest, rfl⟩ := Client.of_getLast (calls_create_of_validate hv state) hgives hlast
    exact ⟨Client.body_of_request? hrequest, created_returned hv hlayout place id state⟩
  · intro client state request hrequest
    have hfinal : Client.Final request (.ok (.created, plan.creation.returned layout place id)) :=
      Bool.and_false _
    rw [← created_returned hv hlayout place id state]
    exact Client.exists_of_final (calls_create_of_validate hv state) hrequest hfinal

end FilterResource

namespace Made

def plan : FilterModel :=
  { name := "office", region := "eu", description := some "the \"HQ\""
    rules := some [⟨"10.0.0.0/8", some "VPN"⟩, ⟨"10.0.0.0/8", none⟩] }

def request : Request :=
  Sample.request .post ["traffic-filters"] <| some <|
    "\x7b\"name\":\"office\",\"region\":\"eu\",\"type\":\"ip\"," ++
    "\"description\":\"the \\\"HQ\\\"\",\"include_by_default\":false," ++
    "\"rules\":[\x7b\"source\":\"10.0.0.0/8\",\"description\":\"VPN\"\x7d," ++
    "\x7b\"source\":\"10.0.0.0/8\"\x7d]\x7d"

end Made

/-- **Two rules of one source and a description with quotes** come back as
they were sent, with the id between them. -/
theorem FilterResource.create_records_plan_quoted :
    Made.plan.validate = [] ∧ Json.Layout.compact.Blank ∧
      Sample.client.request? (.createFilter Made.plan.creation) = some Made.request ∧
      (∃ log, Gives (Sample.client.carryOut
          ((filterResource true).carryOut none (.create Made.plan))) log
          ⟨some (Made.plan.made "tf-1"), []⟩ ∧
        exchanges log =
          [(Made.request, .ok (.created, Made.plan.creation.returned .compact 2 "tf-1"))]) ∧
      Made.plan.planChange (Made.plan.made "tf-1") = .none := by
  have hrequest :
      Sample.client.request? (.createFilter Made.plan.creation) = some Made.request := by
    decide +kernel
  have hv : Made.plan.validate = [] := rfl
  obtain ⟨-, -, hruns, hmet⟩ :=
    FilterResource.create_records_plan hv Json.Layout.blank_compact 2 "tf-1"
  exact ⟨hv, Json.Layout.blank_compact, hrequest, hruns Sample.client none Made.request hrequest,
    hmet.2 (by decide)⟩

end TrafficGate
