import TrafficGate.MemoryServer
import TrafficGate.Proofs.Filter.Lifecycle
/-!
# Updates that are repeated

A server that holds a filter sets the fields a patch sends and keeps the
others (`Patched`). What is tracked of it stays what it reports, however
often the same plan is carried out (`Updates.tracks`), and the first update
does all that any of them can do (`updates_converge`).

That need not be what the plan says. A patch leaves out a description that
the plan does not have and rules that it does not manage, so an update
cannot take these away; and an empty description is tracked as none. A plan
that asks for such a thing (one that is not `Reachable`) is sent again by
every update.
-/

namespace TrafficGate

open Dialogue (Gives Passes)
open MemoryServer (changed)

/-! ## The server -/

/-- A call to a server that holds a filter. A patch of the filter sets the
fields it sends and is answered by the filter as it then is. Nothing is said
of how other calls are answered. -/
inductive FilterInfo.Patched : FilterInfo → AnsweredCall → FilterInfo → Prop
  | patch {info : FilterInfo} (p : FilterPatch) (body : List UInt8) :
      Patched info ⟨.patchFilter info.id p, .ok ⟨.ok, some (changed info p), body⟩⟩
        (changed info p)
  | other {info : FilterInfo} {c : Call} {o : c.Outcome} (h : ∀ p, c ≠ .patchFilter info.id p) :
      Patched info ⟨c, o⟩ info

namespace FilterInfo

theorem patched_patch {info info' : FilterInfo} {p : FilterPatch}
    {o : (Call.patchFilter info.id p).Outcome} :
    Patched info ⟨.patchFilter info.id p, o⟩ info' ↔
      ∃ body, o = .ok ⟨.ok, some (changed info p), body⟩ ∧ info' = changed info p := by
  constructor
  · intro h
    generalize hcall : (⟨.patchFilter info.id p, o⟩ : AnsweredCall) = answered at h
    cases h with
    | patch p' body =>
      cases hcall
      exact ⟨body, rfl, rfl⟩
    | other hne =>
      cases hcall
      exact absurd rfl (hne p)
  · rintro ⟨body, rfl, rfl⟩
    exact .patch p body

end FilterInfo

namespace FilterModel

variable {plan : FilterModel} {info : FilterInfo}

/-! ## What an update can bring about -/

/-- What can be made of a filter by a change: any description but an empty
one or none, and any rules but none. -/
structure Reachable (plan : FilterModel) (info : FilterInfo) : Prop where
  nonempty : plan.description ≠ some ""
  description : plan.description = none → info.description = none ∨ info.description = some ""
  rules : plan.rules = none → info.rules = []

/-- What a plan already has, it could have reached. -/
theorem Reachable.of_planChange (h : plan.planChange (.ofInfo info) = .none) :
    plan.Reachable info := by
  obtain ⟨-, -, hdescription, -, hrules⟩ := planChange_eq_none_iff.1 h
  refine ⟨?_, ?_, ?_⟩
  · intro hempty
    rw [hempty, description_ofInfo] at hdescription
    split at hdescription <;> simp_all
  · intro hnone
    rw [hnone, description_ofInfo] at hdescription
    split at hdescription <;> simp_all
  · intro hnone
    rw [hnone, rules_ofInfo] at hrules
    exact hrules.symm.eq_nil

/-- A change takes nothing away that was in the way. -/
theorem reachable_changed :
    plan.Reachable (changed info plan.patch) ↔ plan.Reachable info := by
  have hdescription : plan.description = none →
      (changed info plan.patch).description = info.description := by
    intro hnone
    simp [changed, patch, hnone]
  have hrules : plan.rules = none → (changed info plan.patch).rules = info.rules := by
    intro hnone
    simp [changed, patch, managedRules, hnone]
  constructor
  · rintro ⟨hne, hd, hr⟩
    exact ⟨hne, fun h => hdescription h ▸ hd h, fun h => hrules h ▸ hr h⟩
  · rintro ⟨hne, hd, hr⟩
    exact ⟨hne, fun h => (hdescription h).symm ▸ hd h, fun h => (hrules h).symm ▸ hr h⟩

/-- **After a change nothing has to change** exactly where the plan could be
reached. -/
theorem planChange_changed (hv : plan.validate = []) (hregion : plan.region = info.region)
    (htype : plan.type = info.type) :
    plan.planChange (.ofInfo (changed info plan.patch)) = .none ↔ plan.Reachable info := by
  refine ⟨fun h => reachable_changed.1 (.of_planChange h), fun h => ?_⟩
  refine planChange_eq_none_iff.2 ⟨⟨hregion, htype⟩, rfl, ?_, rfl, ?_⟩
  · rw [description_ofInfo]
    cases hd : plan.description with
    | none =>
      have hkept : (changed info plan.patch).description = info.description := by
        simp [changed, patch, hd]
      rw [hkept]
      rcases h.description hd with hinfo | hinfo
      · simp [hinfo]
      · simp [hinfo]
    | some d =>
      have hsent : (changed info plan.patch).description = some d := by
        simp [changed, patch, hd]
      have hne : some d ≠ some "" := hd ▸ h.nonempty
      rw [hsent, if_neg hne]
  · rw [rules_ofInfo]
    cases hr : plan.rules with
    | none => simp [changed, patch, managedRules, hr, h.rules hr]
    | some rules => simp [changed, patch, managedRules_eq hv, hr]

end FilterModel

namespace FilterResource

variable {plan : FilterModel} {info info' : FilterInfo} {log : List AnsweredCall}
  {out : Outcome FilterModel} {state state' : Option FilterModel}

/-! ## One update -/

/-- **What an update does** to a filter that is tracked as it is. It sends
nothing if nothing has to change, and else one patch; what is tracked then
is what the server holds. -/
theorem update_iff (hv : plan.validate = []) (hregion : plan.region = info.region)
    (htype : plan.type = info.type) :
    (Gives (update true plan (some (.ofInfo info))).calls log out ∧
        Passes FilterInfo.Patched info log info') ↔
      out = ⟨some (.ofInfo info'), []⟩ ∧
        ((plan.planChange (.ofInfo info) = .none ∧ log = [] ∧ info' = info) ∨
          (plan.planChange (.ofInfo info) ≠ .none ∧ info' = changed info plan.patch ∧
            ∃ body, log = [⟨.patchFilter info.id plan.patch, .ok ⟨.ok, some info', body⟩⟩])) := by
  have hfixed : plan.replacedAttributes (.ofInfo info) = [] :=
    FilterModel.replacedAttributes_eq_nil_iff.2 ⟨hregion, htype⟩
  rw [calls_update_of_tracked hv rfl hfixed]
  by_cases hchange : plan.planChange (.ofInfo info) = .none
  · rw [if_pos hchange, Dialogue.gives_done]
    constructor
    · rintro ⟨⟨rfl, rfl⟩, hpasses⟩
      obtain rfl := Dialogue.passes_nil.1 hpasses
      exact ⟨rfl, .inl ⟨hchange, rfl, rfl⟩⟩
    · rintro ⟨rfl, ⟨-, rfl, rfl⟩ | ⟨hne, -⟩⟩
      · exact ⟨⟨rfl, rfl⟩, .nil⟩
      · exact absurd hchange hne
  · rw [if_neg hchange, Dialogue.gives_ask_done]
    constructor
    · rintro ⟨⟨o, rfl, rfl⟩, hpasses⟩
      obtain ⟨mid, hpatched, hend⟩ := Dialogue.passes_cons.1 hpasses
      obtain rfl := Dialogue.passes_nil.1 hend
      obtain ⟨body, rfl, rfl⟩ := FilterInfo.patched_patch.1 hpatched
      exact ⟨rfl, .inr ⟨hchange, rfl, body, rfl⟩⟩
    · rintro ⟨rfl, ⟨hnone, -⟩ | ⟨-, rfl, body, rfl⟩⟩
      · exact absurd hnone hchange
      · exact ⟨⟨_, rfl, rfl⟩, .cons (.patch _ body) .nil⟩

/-- **An update can be carried out**, and tracks what the server then holds. -/
theorem exists_update (hv : plan.validate = []) (hregion : plan.region = info.region)
    (htype : plan.type = info.type) :
    ∃ log info', Gives (update true plan (some (.ofInfo info))).calls log
        ⟨some (.ofInfo info'), []⟩ ∧
      Passes FilterInfo.Patched info log info' := by
  by_cases hchange : plan.planChange (.ofInfo info) = .none
  · exact ⟨_, _, (update_iff hv hregion htype).2 ⟨rfl, .inl ⟨hchange, rfl, rfl⟩⟩⟩
  · exact ⟨_, _, (update_iff hv hregion htype).2 ⟨rfl, .inr ⟨hchange, rfl, [], rfl⟩⟩⟩

/-! ## Updates one after the other -/

/-- Updates with the same plan, one after the other: the calls of each and
what it told, from one state of the server and of what is tracked to
another. -/
inductive Updates (plan : FilterModel) :
    FilterInfo → Option FilterModel → List (List AnsweredCall × Diagnostics) →
      FilterInfo → Option FilterModel → Prop
  | nil {info : FilterInfo} {state : Option FilterModel} : Updates plan info state [] info state
  | cons {info mid info' : FilterInfo} {state state' : Option FilterModel}
      {log : List AnsweredCall} {out : Outcome FilterModel}
      {runs : List (List AnsweredCall × Diagnostics)} :
      Gives (update true plan state).calls log out → Passes FilterInfo.Patched info log mid →
      Updates plan mid out.state runs info' state' →
      Updates plan info state ((log, out.diagnostics) :: runs) info' state'

/-- All that an update can do has been done: what is missing cannot be
reached. -/
def Settled (plan : FilterModel) (info : FilterInfo) : Prop :=
  plan.planChange (.ofInfo info) = .none ↔ plan.Reachable info

/-- **A change settles**, whatever there was to change. -/
theorem settled_changed (hv : plan.validate = []) (hregion : plan.region = info.region)
    (htype : plan.type = info.type) : Settled plan (changed info plan.patch) :=
  (FilterModel.planChange_changed hv hregion htype).trans FilterModel.reachable_changed.symm

/-- What one update does: it leaves a settled filter that the plan reaches
if it did before, and tracks it. -/
structure Updated (plan : FilterModel) (info : FilterInfo) (log : List AnsweredCall)
    (out : Outcome FilterModel) (info' : FilterInfo) : Prop where
  outcome : out = ⟨some (.ofInfo info'), []⟩
  id : info'.id = info.id
  region : plan.region = info'.region
  type : plan.type = info'.type
  settled : Settled plan info'
  reachable : plan.Reachable info' ↔ plan.Reachable info
  silent : Settled plan info → plan.Reachable info → log = []
  sent : ¬ plan.Reachable info → ∃ o, log = [⟨.patchFilter info.id plan.patch, o⟩]

theorem updated_of_gives (hv : plan.validate = []) (hregion : plan.region = info.region)
    (htype : plan.type = info.type)
    (hgives : Gives (update true plan (some (.ofInfo info))).calls log out)
    (hpasses : Passes FilterInfo.Patched info log info') : Updated plan info log out info' := by
  obtain ⟨hout, ⟨hnone, rfl, rfl⟩ | ⟨hsome, rfl, body, rfl⟩⟩ :=
    (update_iff hv hregion htype).1 ⟨hgives, hpasses⟩
  · have hreach := FilterModel.Reachable.of_planChange hnone
    exact
      { outcome := hout, id := rfl, region := hregion, type := htype
        settled := ⟨fun _ => hreach, fun _ => hnone⟩
        reachable := Iff.rfl
        silent := fun _ _ => rfl
        sent := fun hnot => absurd hreach hnot }
  · exact
      { outcome := hout, id := rfl, region := hregion, type := htype
        settled := settled_changed hv hregion htype
        reachable := FilterModel.reachable_changed
        silent := fun hsettled hreach => absurd (hsettled.2 hreach) hsome
        sent := fun _ => ⟨_, rfl⟩ }

namespace Updates

variable {runs : List (List AnsweredCall × Diagnostics)}

/-- Any number of updates can be carried out. -/
theorem exists_of_length (hv : plan.validate = []) (hregion : plan.region = info.region)
    (htype : plan.type = info.type) (n : Nat) :
    ∃ runs info' state', runs.length = n ∧
      Updates plan info (some (.ofInfo info)) runs info' state' := by
  induction n generalizing info with
  | zero => exact ⟨[], info, _, rfl, .nil⟩
  | succ n ih =>
    obtain ⟨log, mid, hgives, hpasses⟩ := exists_update hv hregion htype
    have hstep := updated_of_gives hv hregion htype hgives hpasses
    obtain ⟨runs, info', state', hlength, hruns⟩ := ih hstep.region hstep.type
    exact ⟨_ :: runs, info', state', congrArg (· + 1) hlength, .cons hgives hpasses hruns⟩

/-- **A filter stays tracked as it is**, and what is settled stays so: no
update sends anything, or each sends the same patch. -/
theorem of_settled (hv : plan.validate = []) (hregion : plan.region = info.region)
    (htype : plan.type = info.type) (hsettled : Settled plan info)
    (h : Updates plan info (some (.ofInfo info)) runs info' state') :
    (∀ r ∈ runs, r.2 = []) ∧
      (∃ tracked, state' = some tracked ∧
        (plan.planChange tracked = .none ↔ plan.Reachable info)) ∧
      ∀ r ∈ runs, (plan.Reachable info → r.1 = []) ∧
        (¬ plan.Reachable info → ∃ o, r.1 = [⟨.patchFilter info.id plan.patch, o⟩]) := by
  generalize hstate : some (FilterModel.ofInfo info) = state at h
  induction h with
  | nil => exact ⟨by simp, ⟨_, hstate.symm, hsettled⟩, by simp⟩
  | cons hgives hpasses hrest ih =>
    subst hstate
    have hstep := updated_of_gives hv hregion htype hgives hpasses
    obtain ⟨hdiagnostics, hmet, hlogs⟩ :=
      ih hstep.region hstep.type hstep.settled (by rw [hstep.outcome])
    rw [hstep.reachable] at hmet
    rw [hstep.reachable, hstep.id] at hlogs
    exact ⟨List.forall_mem_cons.2 ⟨by rw [hstep.outcome], hdiagnostics⟩, hmet,
      List.forall_mem_cons.2 ⟨⟨hstep.silent hsettled, hstep.sent⟩, hlogs⟩⟩

end Updates

/-- **What repeated updates come to.** Any number of them can be carried
out, and none has a diagnostic. After the first, nothing has to change if
and only if the plan could be reached; the further ones then send nothing,
and otherwise each sends the same patch once more. -/
theorem updates_converge (hv : plan.validate = []) (hregion : plan.region = info.region)
    (htype : plan.type = info.type) :
    (∀ n, ∃ runs info' state', runs.length = n ∧
      Updates plan info (some (.ofInfo info)) runs info' state') ∧
    ∀ first further info' state',
      Updates plan info (some (.ofInfo info)) (first :: further) info' state' →
      (∀ r ∈ first :: further, r.2 = []) ∧
      (∃ tracked, state' = some tracked ∧
        (plan.planChange tracked = .none ↔ plan.Reachable info)) ∧
      ∀ r ∈ further, (plan.Reachable info → r.1 = []) ∧
        (¬ plan.Reachable info → ∃ o, r.1 = [⟨.patchFilter info.id plan.patch, o⟩]) := by
  refine ⟨Updates.exists_of_length hv hregion htype, ?_⟩
  rintro first further info' state' (_ | ⟨hgives, hpasses, hrest⟩)
  have hfirst := updated_of_gives hv hregion htype hgives hpasses
  rw [hfirst.outcome] at hrest
  obtain ⟨hdiagnostics, hmet, hlogs⟩ :=
    hrest.of_settled hv hfirst.region hfirst.type hfirst.settled
  rw [hfirst.reachable] at hmet
  rw [hfirst.reachable, hfirst.id] at hlogs
  exact ⟨List.forall_mem_cons.2 ⟨by rw [hfirst.outcome], hdiagnostics⟩, hmet, hlogs⟩

end FilterResource

open FilterResource (Updates)

namespace Kept

/-- A filter with a description and one rule. -/
def info : FilterInfo where
  id := "tf-1"
  name := "office"
  type := .ip
  region := "eu"
  includeByDefault := false
  description := some "HQ"
  rules := [⟨"10.0.0.0/8", none⟩]

/-- It is to have no description. -/
def bare : FilterModel :=
  { name := "office", region := "eu", rules := some [⟨"10.0.0.0/8", none⟩] }

/-- It is to have another name and another description. -/
def renamed : FilterModel :=
  { bare with name := "branch", description := some "East" }

/-- The filter once it has them. -/
def after : FilterInfo := changed info renamed.patch

/-- The calls of an update: the plan, sent as a patch. -/
def sent (plan : FilterModel) : List AnsweredCall :=
  [⟨.patchFilter "tf-1" plan.patch, .ok ⟨.ok, some (changed info plan.patch), []⟩⟩]

end Kept

/-- **A description cannot be taken away.** The plan is well formed and of
the same region and type, but the patch does not mention the description:
the update is sent, changes nothing, and is sent once more. -/
theorem FilterResource.update_keeps_description :
    Kept.bare.validate = [] ∧ Kept.bare.region = Kept.info.region ∧
      Kept.bare.type = Kept.info.type ∧
      Updates Kept.bare Kept.info (some (.ofInfo Kept.info))
        [(Kept.sent Kept.bare, []), (Kept.sent Kept.bare, [])] Kept.info
        (some (.ofInfo Kept.info)) ∧
      Kept.bare.planChange (.ofInfo Kept.info) = .update := by
  refine ⟨rfl, rfl, rfl, ?_, by decide⟩
  have hchange : Kept.bare.planChange (.ofInfo Kept.info) ≠ .none := by decide
  obtain ⟨hgives, hpasses⟩ := (FilterResource.update_iff rfl rfl rfl).2
    ⟨rfl, .inr ⟨hchange, rfl, [], rfl⟩⟩
  exact .cons hgives hpasses (.cons hgives hpasses .nil)

/-- **A description is changed at once**, and then there is nothing left to
do. -/
theorem FilterResource.updates_converge_renamed :
    Kept.renamed.validate = [] ∧ Kept.renamed.region = Kept.info.region ∧
      Kept.renamed.type = Kept.info.type ∧ Kept.renamed.Reachable Kept.info ∧
      Updates Kept.renamed Kept.info (some (.ofInfo Kept.info))
        [(Kept.sent Kept.renamed, []), ([], [])] Kept.after (some (.ofInfo Kept.after)) ∧
      Kept.renamed.planChange (.ofInfo Kept.after) = .none := by
  have hreach : Kept.renamed.Reachable Kept.info := ⟨by decide, by decide, by decide⟩
  have hchange : Kept.renamed.planChange (.ofInfo Kept.info) ≠ .none := by decide
  have hnone : Kept.renamed.planChange (.ofInfo Kept.after) = .none :=
    FilterModel.planChange_eq_none_iff.2 ⟨⟨rfl, rfl⟩, rfl, rfl, rfl, .refl _⟩
  obtain ⟨hgives, hpasses⟩ := (FilterResource.update_iff rfl rfl rfl).2
    ⟨rfl, .inr ⟨hchange, rfl, [], rfl⟩⟩
  obtain ⟨hagain, hunchanged⟩ := (FilterResource.update_iff rfl rfl rfl).2
    ⟨rfl, .inl ⟨hnone, rfl, rfl⟩⟩
  have hupdates : Updates Kept.renamed Kept.info (some (.ofInfo Kept.info))
      [(Kept.sent Kept.renamed, []), ([], [])] Kept.after (some (.ofInfo Kept.after)) :=
    .cons hgives hpasses (.cons hagain hunchanged .nil)
  obtain ⟨-, ⟨tracked, htracked, hmet⟩, -⟩ :=
    (FilterResource.updates_converge rfl rfl rfl).2 _ _ _ _ hupdates
  obtain rfl := Option.some.inj htracked
  exact ⟨rfl, rfl, rfl, hreach, hupdates, hmet.2 hreach⟩

end TrafficGate
