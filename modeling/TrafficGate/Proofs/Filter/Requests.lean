import TrafficGate.Proofs.Association.Requests
import TrafficGate.Proofs.Client.Sample
import TrafficGate.Proofs.Codecs
import TrafficGate.Proofs.Filter.Lifecycle
import TrafficGate.Proofs.Json.Ordering
/-!
# When an update of a filter sends something

An update asks for one change at most, and for that one only if everything
speaks for it: the plan has no problem, the filter is tracked with an id,
what cannot be changed in place is as it was, something else is not, and
there is a client (`Due`). The order in which these are looked at shows only
in what is reported. A change that is not possible in place is reported as
such before anyone asks for an id or a client (`update_of_replaced`).

What is sent says nothing of the id, the region and the type, whatever the
plan says of them (`FilterModel.Sends`).
-/

namespace TrafficGate

open Dialogue (Gives)
open Http (exchanges)
open Json (lookup? member?)

/-! ## What is sent -/

namespace FilterPatch

/-- The members of a request for a change. -/
def members (p : FilterPatch) : List (String × Json) :=
  member? "name" .text p.name ++
  member? "description" .text p.description ++
  member? "include_by_default" .flag p.includeByDefault ++
  member? "rules" Rule.codec.listOf.encode p.rules

theorem toJson_eq (p : FilterPatch) : p.toJson = .object p.members := rfl

/-- The names of the fields that can be changed. -/
def fieldNames : List String := ["name", "description", "include_by_default", "rules"]

/-- The members of a change are in the order of their fields. -/
theorem keys_members (p : FilterPatch) : (p.members.map Prod.fst).Sublist fieldNames := by
  simp only [members, List.map_append]
  exact (((Json.keys_member? ..).append (Json.keys_member? ..)).append
    (Json.keys_member? ..)).append (Json.keys_member? ..)

/-- No key stands twice, whatever is absent. -/
theorem nodup_members (p : FilterPatch) : (p.members.map Prod.fst).Nodup :=
  p.keys_members.nodup (by decide)

theorem numberFree_toJson (p : FilterPatch) : Json.NumberFree p.toJson := by
  rw [toJson_eq]
  refine .object ?_
  simp only [members, List.forall_mem_append]
  refine ⟨⟨⟨?_, ?_⟩, ?_⟩, ?_⟩
  · exact Json.forall_mem_member? .text
  · exact Json.forall_mem_member? .text
  · exact Json.forall_mem_member? .flag
  · exact Json.forall_mem_member? fun rules =>
      (Rule.faithful_codec.listOf.canonical rules).numberFree

/-- **What stands under a key** of what is received. -/
theorem get?_ordered (p : FilterPatch) (key : String) :
    p.toJson.ordered.get? key = (lookup? key p.members).map Json.ordered := by
  rw [toJson_eq]
  exact Json.get?_ordered p.nodup_members key

end FilterPatch

namespace FilterModel

variable {plan tracked : FilterModel} {client : Client} {id : String}

/-- What a server receives of a plan: always the name and the flag, the
description if there is one, and the rules if there are any. No other member
is there, so none for the id, the region or the type. -/
structure Sends (plan : FilterModel) (body : Json) : Prop where
  name : body.get? "name" = some (.text plan.name)
  includeByDefault : body.get? "include_by_default" = some (.flag plan.includeByDefault)
  description : body.get? "description" = plan.description.map .text
  rules : (body.get? "rules").map Rule.codec.listOf.ofValue =
    (plan.rules.filter fun rules => !rules.isEmpty).map .ok
  others : ∀ key, key ∉ FilterPatch.fieldNames → body.get? key = none

/-- **What is sent is received so.** -/
theorem sends_patch (plan : FilterModel) :
    ∃ body, Json.parse (Utf8.ofString plan.patch.toJson.compact) = .ok body ∧ plan.Sends body := by
  have hfree := plan.patch.numberFree_toJson
  have hdocument := Json.document_render Json.Layout.blank_compact hfree
  refine ⟨plan.patch.toJson.ordered, Json.parse_document hdocument hfree, ?_, ?_, ?_, ?_, ?_⟩
  · rw [FilterPatch.get?_ordered]
    simp [FilterPatch.members, patch, Json.ordered]
  · rw [FilterPatch.get?_ordered]
    simp [FilterPatch.members, patch, Json.ordered]
  · rw [FilterPatch.get?_ordered]
    simp [FilterPatch.members, patch, Json.ordered, Function.comp_def]
  · have hrules : Rule.codec.listOf.ofValue ∘ Json.ordered ∘ Rule.codec.listOf.encode = .ok :=
      funext fun rules => Rule.faithful_codec.listOf.ofValue_ordered rules
    rw [FilterPatch.get?_ordered]
    simp [FilterPatch.members, patch, managedRules, hrules]
  · intro key hkey
    rw [FilterPatch.get?_ordered, Json.lookup?_eq_none_iff.2]
    · rfl
    · exact fun hmem => hkey (plan.patch.keys_members.subset hmem)

/-- **The request for a change** goes to the filter of the id, with a body
that is received so. -/
structure ChangedBy (client : Client) (plan : FilterModel) (id : String) (r : Request) : Prop where
  method : r.method = .patch
  url : Client.url client.endpoint ["traffic-filters", id] = .ok r.url
  body : ∃ text body, r.body = some text ∧ Json.parse (Utf8.ofString text) = .ok body ∧
    plan.Sends body

/-- The request for a change says what the plan has changed. -/
theorem changedBy_of_request? {r : Request}
    (h : client.request? (.patchFilter id plan.patch) = some r) : ChangedBy client plan id r := by
  obtain ⟨u, hurl, rfl⟩ := Client.eq_of_request? h
  obtain ⟨body, hparse, hsends⟩ := plan.sends_patch
  exact ⟨rfl, hurl, _, body, rfl, hparse, hsends⟩

/-! ## When it is sent -/

/-- Something that can be changed in place is not as it is planned. -/
def Differs (plan tracked : FilterModel) : Prop :=
  plan.name ≠ tracked.name ∨ plan.description ≠ tracked.description ∨
    plan.includeByDefault ≠ tracked.includeByDefault ∨
    ¬ (plan.rules.getD []).Perm (tracked.rules.getD [])

/-- A change is due if an attribute differs that can be changed. -/
theorem planChange_ne_none_iff (h : plan.replacedAttributes tracked = []) :
    plan.planChange tracked ≠ .none ↔ plan.Differs tracked := by
  rw [Ne, planChange_eq_none_iff, ← replacedAttributes_eq_nil_iff]
  simp only [h, true_and, not_and_or, Differs, Ne]

end FilterModel

namespace FilterResource

variable {configured : Bool} {plan tracked : FilterModel} {state : Option FilterModel}
  {id : String} {client : Client} {out : Outcome FilterModel}

/-- **A change of the filter of an id is due**: everything speaks for it. -/
structure Due (configured : Bool) (plan : FilterModel) (state : Option FilterModel) (id : String) :
    Prop where
  client : configured = true
  valid : plan.validate = []
  tracked : ∃ tracked, state = some tracked ∧ tracked.id = some id ∧
    plan.region = tracked.region ∧ plan.type = tracked.type ∧ plan.Differs tracked

/-- A change that is due is asked for. -/
theorem Due.calls (h : Due configured plan state id) :
    ∃ f : (Call.patchFilter id plan.patch).Outcome → Outcome FilterModel,
      (update configured plan state).calls = .ask (.patchFilter id plan.patch) fun o =>
        .done (f o) := by
  obtain ⟨rfl, hvalid, tracked, rfl, hid, hregion, htype, hdiffers⟩ := h
  have hfixed : plan.replacedAttributes tracked = [] :=
    FilterModel.replacedAttributes_eq_nil_iff.2 ⟨hregion, htype⟩
  have hchange : plan.planChange tracked ≠ .none :=
    (FilterModel.planChange_ne_none_iff hfixed).2 hdiffers
  exact ⟨_, (calls_update_of_tracked hvalid hid hfixed).trans (if_neg hchange)⟩

/-- Where an update asks for something, a change is due. -/
theorem exists_due_or_done (configured : Bool) (plan : FilterModel) (state : Option FilterModel) :
    (∃ id, Due configured plan state id) ∨
      ∃ out, (update configured plan state).calls = .done out := by
  rcases calls_update configured plan state with ⟨ds, -, hcalls⟩ | ⟨-, tracked, -, -, hcalls⟩ |
    ⟨hclient, hvalid, tracked, id, hstate, hid, hfixed, hchange, -⟩
  · exact .inr ⟨_, hcalls⟩
  · exact .inr ⟨_, hcalls⟩
  · obtain ⟨hregion, htype⟩ := FilterModel.replacedAttributes_eq_nil_iff.1 hfixed
    have hdiffers := (FilterModel.planChange_ne_none_iff hfixed).1 hchange
    exact .inl ⟨id, hclient, hvalid, tracked, hstate, hid, hregion, htype, hdiffers⟩

/-- **An update asks for the change that is due, or for nothing.** -/
theorem gives_update {log : List AnsweredCall}
    (h : Gives (update configured plan state).calls log out) :
    (∃ id o, Due configured plan state id ∧ log = [⟨.patchFilter id plan.patch, o⟩]) ∨
    ((∀ id, ¬ Due configured plan state id) ∧ log = []) := by
  rcases exists_due_or_done configured plan state with ⟨id, hdue⟩ | ⟨out', hdone⟩
  · obtain ⟨f, hcalls⟩ := hdue.calls
    rw [hcalls] at h
    obtain ⟨o, rfl, -⟩ := Dialogue.gives_ask_done.1 h
    exact .inl ⟨id, o, hdue, rfl⟩
  · refine .inr ⟨fun id hdue => ?_, ?_⟩
    · obtain ⟨f, hcalls⟩ := hdue.calls
      cases hdone.symm.trans hcalls
    · rw [hdone] at h
      exact (Dialogue.gives_done.1 h).1

/-- There is one id of which a change can be due. -/
theorem Due.id_unique {id' : String} (h : Due configured plan state id)
    (h' : Due configured plan state id') : id = id' := by
  obtain ⟨-, -, tracked, hstate, hid, -⟩ := h
  obtain ⟨-, -, tracked', hstate', hid', -⟩ := h'
  obtain rfl := Option.some.inj (hstate.symm.trans hstate')
  exact Option.some.inj (hid.symm.trans hid')

/-! ## What cannot be changed in place -/

/-- The names of what would have to be replaced. -/
def replacedNames (plan tracked : FilterModel) : List String :=
  (if plan.region ≠ tracked.region then ["region"] else []) ++
  (if plan.type ≠ tracked.type then ["type"] else [])

/-- The problem with a change that is none in place. -/
def replacementRequired (names : List String) : Diagnostic :=
  .error "Replacement required" <|
    "attributes require replacement and cannot be updated in place: " ++
    ", ".intercalate names ++
    ". The resource must be destroyed and recreated; an in-place update " ++
    "request indicates a bug in the lifecycle driver."

/-- The attributes that are replaced are named in their order. -/
theorem names_replacedAttributes :
    (plan.replacedAttributes tracked).map FixedAttribute.name = replacedNames plan tracked := by
  unfold FilterModel.replacedAttributes replacedNames
  rw [List.map_append]
  congr 1
  · split <;> rfl
  · split <;> rfl

/-- **A change that is not possible in place** is told as such, whether
there is an id and a client or not. -/
theorem calls_update_of_replaced (configured : Bool) (hvalid : plan.validate = [])
    (h : plan.region ≠ tracked.region ∨ plan.type ≠ tracked.type) :
    (update configured plan (some tracked)).calls =
      .done ⟨some tracked, [replacementRequired (replacedNames plan tracked)]⟩ := by
  have hne : plan.replacedAttributes tracked ≠ [] := by
    rw [Ne, FilterModel.replacedAttributes_eq_nil_iff, not_and_or]
    exact h
  have hchange : plan.planChange tracked ≠ .none := fun hnone =>
    hne (FilterModel.replacedAttributes_eq_nil_iff.2
      (FilterModel.planChange_eq_none_iff.1 hnone).1)
  rw [calls_update_some configured hvalid, if_neg hchange,
    calls_attemptUpdate_of_replaced configured rfl hne, names_replacedAttributes]
  rfl

/-- **An update sends a change exactly where one is due**, whatever is
planned and tracked and whatever is answered. It asks for one thing at most,
and it does so if and only if the plan has no problem, a filter with an id is
tracked, region and type are those of the plan, something else differs, and
there is a client. What it asks for is a PATCH of the filter that is tracked,
whatever id the plan carries; the body has the name and the flag, the
description if the plan has one and the rules if it has any, and nothing
else. If the plan has no problem but asks for another region or type, then
this is the one thing that is reported, with both by name, whether there is
an id and a client or not. -/
theorem patches_iff_due (configured : Bool) (plan : FilterModel) (state : Option FilterModel) :
    (∀ (log : List AnsweredCall) (out : Outcome FilterModel),
      Gives (update configured plan state).calls log out →
        log.length ≤ 1 ∧ (log ≠ [] ↔ ∃ id, Due configured plan state id) ∧
        ∀ id, Due configured plan state id → log.map Sigma.fst = [.patchFilter id plan.patch]) ∧
    (∀ (client : Client) (log : Http.Log) (out : Outcome FilterModel),
      Gives (client.carryOut (update configured plan state)) log out →
        ((∀ id, ¬ Due configured plan state id) → exchanges log = []) ∧
        ∀ id, Due configured plan state id →
          OneCall client (.patchFilter id plan.patch) (exchanges log) ∧
          ∀ e ∈ exchanges log, FilterModel.ChangedBy client plan id e.1) ∧
    ∀ (tracked : FilterModel), plan.validate = [] → state = some tracked →
      (plan.region ≠ tracked.region ∨ plan.type ≠ tracked.type) →
        ∀ (log : List AnsweredCall) (out : Outcome FilterModel),
          Gives (update configured plan state).calls log out →
            log = [] ∧
            out = ⟨state, [replacementRequired (replacedNames plan tracked)]⟩ := by
  refine ⟨?_, ?_, ?_⟩
  · intro log out h
    rcases gives_update h with ⟨id, o, hdue, rfl⟩ | ⟨hnone, rfl⟩
    · refine ⟨Nat.le_refl 1, ⟨fun _ => ⟨id, hdue⟩, fun _ => List.cons_ne_nil _ _⟩, ?_⟩
      rintro id' hdue'
      rw [hdue.id_unique hdue']
      rfl
    · refine ⟨Nat.zero_le 1, ⟨fun h => absurd rfl h, ?_⟩, fun id hdue => absurd hdue (hnone id)⟩
      rintro ⟨id, hdue⟩
      exact absurd hdue (hnone id)
  · intro client log out h
    obtain ⟨answered, hgives, hspells⟩ := Client.gives_carryOut h
    rcases gives_update hgives with ⟨id, o, hdue, rfl⟩ | ⟨hnone, rfl⟩
    · refine ⟨fun hnone => absurd hdue (hnone id), ?_⟩
      intro id' hdue'
      obtain rfl := hdue.id_unique hdue'
      obtain ⟨l, hperform, hwire⟩ := Client.spells_singleton.1 hspells
      rw [hwire]
      exact ⟨Client.oneCall_of_gives hperform, fun e he =>
        FilterModel.changedBy_of_request? (Client.request?_of_mem hperform he)⟩
    · exact ⟨fun _ => Client.spells_nil.1 hspells, fun id hdue => absurd hdue (hnone id)⟩
  · rintro tracked hvalid rfl hreplaced log out h
    rw [calls_update_of_replaced configured hvalid hreplaced] at h
    exact Dialogue.gives_done.1 h

end FilterResource

namespace FilterResource.Retitled

/-- The plan carries an id of its own, which does not count. -/
def plan : FilterModel where
  id := some "other"
  name := "new"
  region := "r"
  rules := some [⟨"b", none⟩, ⟨"a", none⟩]

def tracked : FilterModel where
  id := some "tf-1"
  name := "old"
  region := "r"
  description := some "kept"
  rules := some [⟨"a", none⟩, ⟨"b", none⟩]

/-- A filter that was tracked without an id, of another region and type. -/
def elsewhere : FilterModel where
  name := "old"
  region := "s"
  type := .vpce

def patch : Request :=
  Sample.request .patch ["traffic-filters", "tf-1"] <| some <|
    "\x7b\"name\":\"new\",\"include_by_default\":false," ++
    "\"rules\":[\x7b\"source\":\"b\"\x7d,\x7b\"source\":\"a\"\x7d]\x7d"

/-- The filter is not known to the server any more. -/
def log : Http.Log :=
  [⟨.exchange patch, (.ok (.notFound, []) : Exchange)⟩,
    ⟨.count (Metric.requestDuration.labelled "method" "PATCH"), ()⟩]

def out : Outcome FilterModel :=
  ⟨some tracked, [(ResourceError.filterNotFound "tf-1").diagnostic]⟩

/-- The change is due: the plan is right, and the name differs. -/
theorem due : Due true plan (some tracked) "tf-1" where
  client := rfl
  valid := by decide
  tracked := ⟨tracked, rfl, rfl, rfl, rfl, .inl (by decide)⟩

/-- **A new name and no description** are a change of the name only; nothing
is sent without a client, and another region and type are reported even
then. -/
theorem patches_iff_due_retitled :
    Due true plan (some tracked) "tf-1" ∧
      Gives (Sample.client.carryOut (update true plan (some tracked))) log out ∧
      exchanges log = [(patch, .ok (.notFound, []))] ∧
      OneCall Sample.client (.patchFilter "tf-1" plan.patch) (exchanges log) ∧
      FilterModel.ChangedBy Sample.client plan "tf-1" patch ∧
      Gives (update false plan (some tracked)).calls []
        ⟨some tracked, [ResourceError.unconfigured.diagnostic]⟩ ∧
      (∀ id, ¬ Due false plan (some tracked) id) ∧
      Gives (update false plan (some elsewhere)).calls []
        ⟨some elsewhere, [replacementRequired ["region", "type"]]⟩ := by
  have hgives : Gives (Sample.client.carryOut (update true plan (some tracked))) log out := by
    decide +kernel
  have hunconfigured : Gives (update false plan (some tracked)).calls []
      ⟨some tracked, [ResourceError.unconfigured.diagnostic]⟩ := by decide +kernel
  obtain ⟨-, hwire, -⟩ := patches_iff_due true plan (some tracked)
  obtain ⟨hcall, hpatch⟩ := (hwire Sample.client log out hgives).2 "tf-1" due
  obtain ⟨hcalls, -, -⟩ := patches_iff_due false plan (some tracked)
  obtain ⟨-, hnone, -⟩ := hcalls [] _ hunconfigured
  obtain ⟨-, -, hreplaced⟩ := patches_iff_due false plan (some elsewhere)
  obtain ⟨out', hout⟩ : ∃ out, Gives (update false plan (some elsewhere)).calls [] out :=
    ⟨⟨some elsewhere, [replacementRequired ["region", "type"]]⟩, by decide +kernel⟩
  obtain ⟨-, rfl⟩ := hreplaced elsewhere (by decide) rfl (.inl (by decide)) [] out' hout
  exact ⟨due, hgives, rfl, hcall, hpatch (patch, .ok (.notFound, [])) List.mem_cons_self,
    hunconfigured, fun id hdue => absurd (hnone.2 ⟨id, hdue⟩) (by simp), hout⟩

end FilterResource.Retitled

end TrafficGate
