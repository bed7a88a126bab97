import TrafficGate.Proofs.Association.ImportKeys
import TrafficGate.Proofs.Association.Lifecycle
import TrafficGate.Proofs.Filter.Lifecycle
import TrafficGate.Proofs.Resource.Ensures
/-!
# Tracked models are well formed

Plans and import keys are whatever a user gives, and the API may answer
whatever it likes; still what is tracked keeps its form. A tracked filter
has an id, and neither an empty description nor an empty list of rules. A
tracked association has its identity as its id and would pass as a plan.

One step is shown for each operation, and a run follows by
`Dialogue.Passes.invariant`. That nothing is wrong with the input of an
operation on such a model (`ResourceError.Outside`) is part of the step, so
two errors are never reported on any run.
-/

namespace TrafficGate

open Attempt (Ensures ensures_pure ensures_throw ensures_throw_bind ensures_liftExcept
  ensures_call ensures_count ensures_requireClient)
open Dialogue (Gives Passes)

/-- An error that is not about what the user gave. -/
def ResourceError.Outside (e : ResourceError) : Prop := e.category ≠ .invalidInput

/-- A request that fails is not the user's doing. -/
theorem ResourceError.outside_transport (action : Action) (cause : ApiError) :
    (transport action cause).Outside :=
  nofun

/-- What an action is reported under is never the summary of a wrong input. -/
theorem Action.summary_ne (a : Action) :
    a.summary ≠ "Invalid attribute value" ∧ a.summary ≠ "Invalid project type" := by
  cases a <;> decide

/-- Such an error is told apart from those about the input by its summary. -/
theorem ResourceError.Outside.summary_ne {e : ResourceError} (h : e.Outside) :
    e.diagnostic.summary ≠ "Invalid attribute value" ∧
      e.diagnostic.summary ≠ "Invalid project type" := by
  cases e with
  | projectNotFound kind id => exact ⟨by simp [diagnostic, Diagnostic.error],
      by simp [diagnostic, Diagnostic.error]⟩
  | filterNotFound id => exact ⟨by simp [diagnostic, Diagnostic.error],
      by simp [diagnostic, Diagnostic.error]⟩
  | unknownKind given => exact absurd rfl h
  | importKey fault => exact absurd rfl h
  | invalidAttribute name message => exact absurd rfl h
  | transport action cause => exact action.summary_ne
  | unexpected action statusLine body => exact action.summary_ne
  | updateNotSupported => exact ⟨by decide, by decide⟩
  | replacementRequired attributes => exact ⟨by simp [diagnostic, Diagnostic.error],
      by simp [diagnostic, Diagnostic.error]⟩
  | unconfigured => exact ⟨by decide, by decide⟩

/-! ## Filters -/

/-- The form of a tracked filter. -/
structure FilterModel.WellFormed (m : FilterModel) : Prop where
  id : m.id.isSome = true
  description : m.description ≠ some ""
  rules : m.rules ≠ some []

namespace FilterModel

/-- A filter that is only known by its id is well formed. -/
theorem wellFormed_imported (id : String) : (imported id).WellFormed where
  id := rfl
  description := by simp [imported]
  rules := by simp [imported]

/-- **What is tracked of a report is well formed**, whatever is reported. -/
theorem wellFormed_ofInfo (info : FilterInfo) : (ofInfo info).WellFormed where
  id := rfl
  description := by
    rw [description_ofInfo]
    split
    · simp
    · assumption
  rules := by
    cases h : info.rules with
    | nil => simp [ofInfo, h]
    | cons r rs => simp [ofInfo, h]

end FilterModel

namespace FilterResource

variable {configured : Bool} {op : Operation FilterModel} {plan tracked : FilterModel}
  {before : Option FilterModel} {log : List AnsweredCall} {out : Outcome FilterModel}

/-- What is told of a tracked filter that has no id. -/
def noId : ResourceError := .invalidAttribute "id" "traffic filter has no id in state"

/-- No plan has this problem. -/
theorem noId_not_mem_validate (plan : FilterModel) : noId.diagnostic ∉ plan.validate := by
  have hcomplaint : ∀ {holds : Bool} {name message : String},
      noId.diagnostic ≠ (ResourceError.invalidAttribute name message).diagnostic →
        noId.diagnostic ∉ FilterModel.complaint holds name message := by
    intro holds name message hne
    cases holds with
    | false => simp [FilterModel.complaint]
    | true => simpa [FilterModel.complaint] using hne
  simp only [FilterModel.validate, List.mem_append, not_or]
  refine ⟨⟨hcomplaint (by decide), hcomplaint (by decide)⟩, ?_⟩
  cases plan.rules with
  | none => simp
  | some rules =>
    simp only [List.mem_append, not_or]
    exact ⟨hcomplaint (by decide), hcomplaint (by decide)⟩

/-! ### What the attempts ensure -/

/-- An answer ends in a filter, or in an error that is not about the input. -/
theorem ended_expectInfo (action : Action) (expected : Status) (r : Response FilterInfo) :
    Attempt.Ended (fun _ => True) ResourceError.Outside (expectInfo action expected r) := by
  have hunexpected : (ResourceError.ofResponse action r).Outside := nofun
  unfold expectInfo
  split
  · split
    · trivial
    · exact hunexpected
  · exact hunexpected

/-- What is tracked of an expected payload. -/
theorem ensures_expectInfo (action : Action) (expected : Status) (r : Response FilterInfo) :
    Ensures FilterModel.WellFormed ResourceError.Outside (do
      let info ← expectInfo action expected r
      return .ofInfo info) :=
  (ensures_liftExcept (ended_expectInfo action expected r)).bind fun info _ =>
    ensures_pure (FilterModel.wellFormed_ofInfo info)

/-- A filter that is created is tracked as the server answers it. -/
theorem ensures_attemptCreate (configured : Bool) (plan : FilterModel) :
    Ensures FilterModel.WellFormed ResourceError.Outside (attemptCreate configured plan) :=
  (ensures_requireClient configured nofun).bind fun _ _ =>
    (ensures_call (ResourceError.outside_transport _)).bind fun r _ =>
        ensures_expectInfo .createFilter .created r

/-- The id of a well-formed model is there. -/
theorem ensures_trackedId (h : tracked.WellFormed) :
    Ensures (fun _ => True) ResourceError.Outside (liftM (trackedId tracked) : Attempt String) := by
  refine ensures_liftExcept ?_
  obtain ⟨id, hid⟩ := Option.isSome_iff_exists.1 h.id
  rw [trackedId, hid]
  trivial

/-- A read leaves a filter that is well formed, or none. -/
theorem ensures_attemptRead (configured : Bool) (h : tracked.WellFormed) :
    Ensures (fun model => ∀ m, model = some m → m.WellFormed) ResourceError.Outside
      (attemptRead configured tracked) := by
  refine (ensures_trackedId h).bind fun id _ => (ensures_requireClient configured nofun).bind
    fun _ _ => (ensures_call (ResourceError.outside_transport _)).bind
      fun (r : Response FilterInfo) _ => ?_
  by_cases hr : r.status = .notFound
  · simp only [hr, if_true]
    exact ensures_pure nofun
  · simp only [hr, if_false]
    refine (ensures_liftExcept (ended_expectInfo .readFilter .ok r)).bind fun info _ =>
      ensures_pure ?_
    rintro _ ⟨⟩
    exact FilterModel.wellFormed_ofInfo info

/-- A change leaves one, too. -/
theorem ensures_attemptUpdate (configured : Bool) (plan : FilterModel) (h : tracked.WellFormed) :
    Ensures FilterModel.WellFormed ResourceError.Outside
      (attemptUpdate configured plan tracked) := by
  by_cases hreplaced : plan.replacedAttributes tracked = []
  · rw [attemptUpdate_of_fixed configured hreplaced]
    refine (ensures_trackedId h).bind fun id _ => (ensures_requireClient configured nofun).bind
      fun _ _ => (ensures_call (ResourceError.outside_transport _)).bind
        fun (r : Response FilterInfo) _ => ?_
    by_cases hr : r.status = .notFound
    · simp only [hr, if_true]
      exact ensures_throw_bind nofun _
    · simp only [hr, if_false]
      exact ensures_expectInfo .updateFilter .ok r
  · exact Attempt.ensures_of_calls
      (calls_attemptUpdate_of_replaced configured rfl hreplaced) nofun

/-- What goes wrong in a deletion is not about the input. -/
theorem ensures_attemptDelete (configured : Bool) (h : tracked.WellFormed) :
    Ensures (fun _ => True) ResourceError.Outside (attemptDelete configured tracked) := by
  refine (ensures_trackedId h).bind fun id _ => (ensures_requireClient configured nofun).bind
    fun _ _ => (ensures_call (ResourceError.outside_transport _)).bind
      fun (r : Response Empty) _ => ?_
  by_cases hr : r.status ∈ [Status.ok, .noContent, .notFound]
  · simp only [hr, if_true]
    exact ensures_pure trivial
  · simp only [hr, if_false]
    exact ensures_throw nofun

/-! ### One operation -/

/-- What is known after an operation on a filter. -/
structure Sound (out : Outcome FilterModel) : Prop where
  wellFormed : ∀ m, out.state = some m → m.WellFormed
  noId : noId.diagnostic ∉ out.diagnostics

/-- An error that is not about the input leaves what is tracked alone. -/
theorem sound_of_outside {e : ResourceError} (hbefore : ∀ m, before = some m → m.WellFormed)
    (h : e.Outside) : Sound ⟨before, [e.diagnostic]⟩ where
  wellFormed := hbefore
  noId := by
    rw [List.mem_singleton]
    intro heq
    exact h.summary_ne.1 (congrArg Diagnostic.summary heq).symm

/-- Where nothing is tracked, there is nothing wrong with it. -/
theorem sound_none : Sound ⟨none, []⟩ := ⟨nofun, by simp⟩

theorem sound_some {m : FilterModel} (h : m.WellFormed) : Sound ⟨some m, []⟩ :=
  ⟨by rintro _ ⟨⟩; exact h, by simp⟩

/-- A plan with a problem changes nothing. -/
theorem sound_validate (plan : FilterModel) (hbefore : ∀ m, before = some m → m.WellFormed) :
    Sound ⟨before, plan.validate⟩ :=
  ⟨hbefore, noId_not_mem_validate plan⟩

/-- A create keeps the form of what is tracked. -/
theorem sound_create (hbefore : ∀ m, before = some m → m.WellFormed)
    (h : Gives (create configured plan before).calls log out) : Sound out := by
  by_cases hv : plan.validate.hasError = true
  · rw [calls_create_of_hasError configured hv] at h
    obtain ⟨-, rfl⟩ := Dialogue.gives_done.1 h
    exact sound_validate plan hbefore
  have hnil := FilterModel.validate_eq_nil (Bool.not_eq_true _ ▸ hv)
  rw [calls_create_valid configured hnil] at h
  rcases (ensures_attemptCreate configured plan).outcome h with ⟨m, hm, rfl⟩ | ⟨e, he, rfl⟩
  · exact sound_some hm
  · exact sound_of_outside hbefore he

/-- A read keeps it, and drops the filter at most. -/
theorem sound_read (hbefore : ∀ m, before = some m → m.WellFormed)
    (h : Gives (read configured before).calls log out) : Sound out := by
  obtain _ | tracked := before
  · obtain ⟨-, rfl⟩ := Dialogue.gives_done.1 h
    exact sound_none
  rw [calls_read_some] at h
  rcases (ensures_attemptRead configured (hbefore tracked rfl)).outcome h with
    ⟨m, hm, rfl⟩ | ⟨e, he, rfl⟩
  · exact ⟨hm, by simp⟩
  · exact sound_of_outside hbefore he

/-- An update keeps it, whatever the plan. -/
theorem sound_update (hbefore : ∀ m, before = some m → m.WellFormed)
    (h : Gives (update configured plan before).calls log out) : Sound out := by
  by_cases hv : plan.validate.hasError = true
  · rw [calls_update_of_hasError configured hv] at h
    obtain ⟨-, rfl⟩ := Dialogue.gives_done.1 h
    exact sound_validate plan hbefore
  have hnil := FilterModel.validate_eq_nil (Bool.not_eq_true _ ▸ hv)
  obtain _ | tracked := before
  · rw [calls_update_none configured hnil] at h
    obtain ⟨-, rfl⟩ := Dialogue.gives_done.1 h
    exact ⟨nofun, by decide⟩
  rw [calls_update_some configured hnil] at h
  by_cases hchange : plan.planChange tracked = .none
  · rw [if_pos hchange] at h
    obtain ⟨-, rfl⟩ := Dialogue.gives_done.1 h
    exact sound_some (hbefore tracked rfl)
  rw [if_neg hchange] at h
  rcases (ensures_attemptUpdate configured plan (hbefore tracked rfl)).outcome h with
    ⟨m, hm, rfl⟩ | ⟨e, he, rfl⟩
  · exact sound_some hm
  · exact sound_of_outside hbefore he

/-- A delete keeps it, if it does not come to an end. -/
theorem sound_delete (hbefore : ∀ m, before = some m → m.WellFormed)
    (h : Gives (delete configured before).calls log out) : Sound out := by
  obtain _ | tracked := before
  · obtain ⟨-, rfl⟩ := Dialogue.gives_done.1 h
    exact sound_none
  rw [calls_delete_some] at h
  rcases (ensures_attemptDelete configured (hbefore tracked rfl)).outcome h with
    ⟨_, -, rfl⟩ | ⟨e, he, rfl⟩
  · exact sound_none
  · exact sound_of_outside hbefore he

/-- **An operation keeps tracked filters well formed**, whatever comes of
its calls. -/
theorem sound_carryOut (hbefore : ∀ m, before = some m → m.WellFormed)
    (h : Gives ((filterResource configured).carryOut before op).calls log out) : Sound out := by
  cases op with
  | create plan => exact sound_create hbefore h
  | read => exact sound_read hbefore h
  | update plan => exact sound_update hbefore h
  | delete => exact sound_delete hbefore h
  | importState key =>
    obtain ⟨-, rfl⟩ := Dialogue.gives_done.1 h
    exact sound_some (FilterModel.wellFormed_imported key)

end FilterResource

/-! ## Associations -/

/-- The form of a tracked association. -/
structure Association.WellFormed (a : Association) : Prop where
  id : a.id = some (identity a.projectId a.filterId)
  validate : a.validate = []

namespace Association

/-- The identity is no part of what is validated. -/
theorem wellFormed_withId {a : Association} (h : a.validate = []) : a.withId.WellFormed where
  id := rfl
  validate := h

/-- **An import key names a well-formed association.** -/
theorem wellFormed_ofKey {key : String} {k : ImportKey} (h : ImportKey.ofString key = .ok k) :
    (ofKey k).WellFormed := by
  obtain ⟨-, hproject, hfilter⟩ := ImportKey.writes_of_ofString h
  have hparts : k.projectId.isEmpty = false ∧ k.filterId.isEmpty = false := by
    simp [hproject.ne_empty, hfilter.ne_empty]
  refine wellFormed_withId ?_
  simp [validate, emptyAttribute, kind, hparts]

/-- A well-formed association is of a known kind. -/
theorem WellFormed.kind {a : Association} (h : a.WellFormed) : ∃ k, a.kind = .ok k := by
  obtain ⟨-, p, hp⟩ := valid_of_not_hasError (a := a) (by rw [h.validate]; rfl)
  exact ⟨p.kind, by rw [kind_eq, hp]⟩

end Association

/-! ### What the attempts ensure -/

namespace ProjectKey

variable (p : ProjectKey)

/-- What is told of a write is told in one wording. -/
def Remark (d : Diagnostic) : Prop := d.summary = "Concurrent traffic filter modification"

/-- A project ends in its list, or in an error that is not about the input. -/
theorem ended_membershipOf (action : Action) (r : Response Project) :
    Attempt.Ended (fun _ => True) ResourceError.Outside (p.membershipOf action r) := by
  have hnotFound : (ResourceError.projectNotFound p.kind p.id).Outside := nofun
  have hunexpected : (ResourceError.ofResponse action r).Outside := nofun
  unfold membershipOf
  split
  · exact hnotFound
  · split
    · exact hunexpected
    · trivial

/-- A read of a list ends in these two ways. -/
theorem ensures_fetchMembership :
    Ensures (fun _ => True) ResourceError.Outside p.fetchMembership :=
  (ensures_call (ResourceError.outside_transport _)).bind fun r _ =>
    ensures_liftExcept (p.ended_membershipOf .readProject r)

/-- A write of a list ends in them, too. -/
theorem ensures_storeMembership (m : Membership) :
    Ensures (fun _ => True) ResourceError.Outside (p.storeMembership m) :=
  (ensures_call (ResourceError.outside_transport _)).bind fun r _ =>
    ensures_liftExcept (p.ended_membershipOf .updateProject r)

/-- A write has nothing to say but that the echo is another list. -/
theorem ensures_write (target : Membership) :
    Ensures (fun ds => ∀ d ∈ ds, Remark d) ResourceError.Outside (p.write target) := by
  refine (p.ensures_storeMembership target).bind fun reported _ =>
    (ensures_count _).bind fun _ _ => ?_
  by_cases hagrees : reported.agrees target = true
  · simp only [hagrees, if_true]
    exact ensures_pure (by simp)
  · simp only [hagrees]
    exact (ensures_count _).bind fun _ _ => ensures_pure (by simp [Remark, concurrentChange,
      Diagnostic.warning])

/-- The same holds where a filter is taken off the list. -/
theorem ensures_ensureAbsent (filterId : String) :
    Ensures (fun v => ∀ d ∈ v.2, Remark d) ResourceError.Outside (p.ensureAbsent filterId) := by
  refine p.ensures_fetchMembership.bind fun current _ => ?_
  cases current.remove? filterId with
  | some target => exact (p.ensures_write target).bind fun ds hds => ensures_pure hds
  | none => exact (ensures_count _).bind fun _ _ => ensures_pure (by simp)

end ProjectKey

namespace AssociationResource

variable {configured : Bool} {op : Operation Association} {plan tracked : Association}
  {before : Option Association} {log : List AnsweredCall} {out : Outcome Association}

/-- The kind of a tracked association is never refused. -/
theorem ensures_projectOf (configured : Bool) (h : tracked.WellFormed) :
    Ensures (fun _ => True) ResourceError.Outside (projectOf configured tracked) := by
  obtain ⟨k, hk⟩ := h.kind
  have hkind : Attempt.Ended (fun _ => True) ResourceError.Outside tracked.kind := by
    rw [hk]
    trivial
  exact (ensures_liftExcept hkind).bind fun kind _ =>
    (ensures_requireClient configured nofun).bind fun _ _ => ensures_pure trivial

/-- What goes wrong in a read is not about the input. -/
theorem ensures_attemptRead (configured : Bool) (h : tracked.WellFormed) :
    Ensures (fun _ => True) ResourceError.Outside (attemptRead configured tracked) := by
  refine (ensures_projectOf configured h).bind fun p _ => Ensures.tryCatch
    (p.ensures_fetchMembership.bind fun current _ => ensures_pure trivial) fun e he => ?_
  cases e with
  | projectNotFound kind id => exact ensures_pure trivial
  | filterNotFound id => exact ensures_throw he
  | unknownKind given => exact ensures_throw he
  | importKey fault => exact ensures_throw he
  | invalidAttribute name message => exact ensures_throw he
  | transport action cause => exact ensures_throw he
  | unexpected action statusLine body => exact ensures_throw he
  | updateNotSupported => exact ensures_throw he
  | replacementRequired attributes => exact ensures_throw he
  | unconfigured => exact ensures_throw he

/-- Nor is what goes wrong in a deletion, and a write is all that is remarked
on. -/
theorem ensures_attemptDelete (configured : Bool) (h : tracked.WellFormed) :
    Ensures (fun ds => ∀ d ∈ ds, ProjectKey.Remark d) ResourceError.Outside
      (attemptDelete configured tracked) :=
  (ensures_projectOf configured h).bind fun p _ =>
    (p.ensures_ensureAbsent tracked.filterId).bind fun _ hv => ensures_pure hv

/-- A create ends with its plan, and its identity as the id. -/
theorem ensures_attemptCreate (configured : Bool) (plan : Association) :
    Ensures (fun v => v.1 = plan.withId) (fun _ => True) (attemptCreate configured plan) :=
  (Attempt.ensures_any _).bind fun _ _ => (Attempt.ensures_any _).bind fun _ _ => ensures_pure rfl

/-! ### One operation -/

/-- What is known after an operation on an association. -/
structure Sound (op : Operation Association) (out : Outcome Association) : Prop where
  wellFormed : ∀ a, out.state = some a → a.WellFormed
  kind : op = .read ∨ op = .delete → ∀ d ∈ out.diagnostics, d.summary ≠ "Invalid project type"

/-- An error that is not about the input leaves what is tracked alone. -/
theorem sound_of_outside {e : ResourceError} (hbefore : ∀ a, before = some a → a.WellFormed)
    (h : e.Outside) : Sound op ⟨before, [e.diagnostic]⟩ where
  wellFormed := hbefore
  kind _ := by simpa using h.summary_ne.2

/-- Where nothing is tracked, there is nothing wrong with it. -/
theorem sound_none (op : Operation Association) : Sound op ⟨none, []⟩ := ⟨nofun, by simp⟩

/-- A create keeps the form of what is tracked. -/
theorem sound_create {plan : Association} (hbefore : ∀ a, before = some a → a.WellFormed)
    (h : Gives (create configured plan before).calls log out) : Sound (.create plan) out := by
  refine ⟨?_, by simp⟩
  by_cases hv : plan.validate.hasError = true
  · rw [calls_create_of_hasError configured hv] at h
    obtain ⟨-, rfl⟩ := Dialogue.gives_done.1 h
    exact hbefore
  obtain ⟨hnil, -⟩ := Association.valid_of_not_hasError (Bool.not_eq_true _ ▸ hv)
  rw [calls_create_of_validate configured hnil] at h
  rcases (ensures_attemptCreate configured plan).outcome h with ⟨v, hmodel, rfl⟩ | ⟨e, -, rfl⟩
  · rintro _ ⟨⟩
    exact hmodel ▸ Association.wellFormed_withId hnil
  · exact hbefore

/-- A read keeps it, and drops the association at most. -/
theorem sound_read (hbefore : ∀ a, before = some a → a.WellFormed)
    (h : Gives (read configured before).calls log out) : Sound .read out := by
  obtain _ | tracked := before
  · obtain ⟨-, rfl⟩ := Dialogue.gives_done.1 h
    exact sound_none .read
  rw [calls_read_some] at h
  rcases (ensures_attemptRead configured (hbefore tracked rfl)).outcome h with
    ⟨present, -, rfl⟩ | ⟨e, he, rfl⟩
  · cases present with
    | true => exact ⟨hbefore, by simp⟩
    | false => exact sound_none .read
  · exact sound_of_outside hbefore he

/-- A delete keeps it, if it does not come to an end. -/
theorem sound_delete (hbefore : ∀ a, before = some a → a.WellFormed)
    (h : Gives (delete configured before).calls log out) : Sound .delete out := by
  obtain _ | tracked := before
  · obtain ⟨-, rfl⟩ := Dialogue.gives_done.1 h
    exact sound_none .delete
  rw [calls_delete_some] at h
  rcases (ensures_attemptDelete configured (hbefore tracked rfl)).outcome h with
    ⟨ds, hds, rfl⟩ | ⟨e, he, rfl⟩
  · refine ⟨nofun, fun _ d hd => ?_⟩
    rw [hds d hd]
    decide
  · exact sound_of_outside hbefore he

/-- A key that is read gives a form of its own, and one that is not gives
nothing. -/
theorem sound_importState (key : String) (hbefore : ∀ a, before = some a → a.WellFormed) :
    Sound (.importState key) (importState key before) := by
  refine ⟨?_, by simp⟩
  unfold importState
  cases hkey : ImportKey.ofString key with
  | ok k =>
    rintro _ ⟨⟩
    exact Association.wellFormed_ofKey hkey
  | error fault => exact hbefore

/-- **An operation keeps tracked associations well formed**, whatever comes
of its calls. -/
theorem sound_carryOut (hbefore : ∀ a, before = some a → a.WellFormed)
    (h : Gives ((associationResource configured).carryOut before op).calls log out) :
    Sound op out := by
  cases op with
  | create plan => exact sound_create hbefore h
  | read => exact sound_read hbefore h
  | update plan =>
    obtain ⟨-, rfl⟩ := Dialogue.gives_done.1 h
    exact ⟨hbefore, by simp⟩
  | delete => exact sound_delete hbefore h
  | importState key =>
    obtain ⟨-, rfl⟩ := Dialogue.gives_done.1 h
    exact sound_importState key hbefore

end AssociationResource

/-! ## Runs -/

/-- An operation that was carried out, with or without a client: what came
of its calls, and its outcome. -/
structure CarriedOut (M : Type) where
  configured : Bool
  operation : Operation M
  log : List AnsweredCall
  outcome : Outcome M

/-- What is tracked before and after it. -/
def CarriedOut.Happens {M : Type} (resource : Bool → Resource M) (before : Option M)
    (c : CarriedOut M) (after : Option M) : Prop :=
  Gives ((resource c.configured).carryOut before c.operation).calls c.log c.outcome ∧
    after = c.outcome.state

/-- **What is tracked is well formed after every run.** A run is any
sequence of operations with any plans and keys, each with or without a
client and with any answers to its calls. What is tracked of a filter has
an id, no empty description and no empty list of rules, so no operation of
the run ever lacks the id. What is tracked of an association has its
identity as its id and is a valid plan itself, so no read or delete of the
run finds its kind unknown. -/
theorem tracked_wellFormed :
    (∀ (start : Option FilterModel) (run : List (CarriedOut FilterModel))
        (final : Option FilterModel),
      start = none ∨ (∃ id, start = some (.imported id)) →
      Passes (CarriedOut.Happens filterResource) start run final →
      (∀ m, final = some m → m.id.isSome = true ∧ m.description ≠ some "" ∧ m.rules ≠ some []) ∧
      ∀ c ∈ run, FilterResource.noId.diagnostic ∉ c.outcome.diagnostics) ∧
    (∀ (run : List (CarriedOut Association)) (final : Option Association),
      Passes (CarriedOut.Happens associationResource) none run final →
      (∀ a, final = some a →
        a.id = some (Association.identity a.projectId a.filterId) ∧ a.validate = []) ∧
      ∀ c ∈ run, c.operation = .read ∨ c.operation = .delete →
        ∀ d ∈ c.outcome.diagnostics, d.summary ≠ "Invalid project type") := by
  constructor
  · intro start run final hstart hrun
    have hwell : ∀ m, start = some m → m.WellFormed := by
      rcases hstart with rfl | ⟨id, rfl⟩
      · exact nofun
      · rintro _ ⟨⟩
        exact FilterModel.wellFormed_imported id
    have hstep : ∀ (before : Option FilterModel) (c : CarriedOut FilterModel)
        (after : Option FilterModel), (∀ m, before = some m → m.WellFormed) →
        c.Happens filterResource before after →
        (∀ m, after = some m → m.WellFormed) ∧
          FilterResource.noId.diagnostic ∉ c.outcome.diagnostics := by
      rintro before c _ hbefore ⟨hgives, rfl⟩
      have hsound := FilterResource.sound_carryOut hbefore hgives
      exact ⟨hsound.wellFormed, hsound.noId⟩
    obtain ⟨hfinal, hshown⟩ := hrun.invariant hstep hwell
    exact ⟨fun m hm => ⟨(hfinal m hm).id, (hfinal m hm).description, (hfinal m hm).rules⟩, hshown⟩
  · intro run final hrun
    have hstep : ∀ (before : Option Association) (c : CarriedOut Association)
        (after : Option Association), (∀ a, before = some a → a.WellFormed) →
        c.Happens associationResource before after →
        (∀ a, after = some a → a.WellFormed) ∧
          (c.operation = .read ∨ c.operation = .delete →
            ∀ d ∈ c.outcome.diagnostics, d.summary ≠ "Invalid project type") := by
      rintro before c _ hbefore ⟨hgives, rfl⟩
      have hsound := AssociationResource.sound_carryOut hbefore hgives
      exact ⟨hsound.wellFormed, hsound.kind⟩
    obtain ⟨hfinal, hshown⟩ := hrun.invariant hstep nofun
    exact ⟨fun a ha => ⟨(hfinal a ha).id, (hfinal a ha).validate⟩, hshown⟩

/-! ### A run with empty values

A filter is created and reported with an empty description and no rules;
then it is to be deleted while there is no client. An association is
imported, and its project cannot be reached. -/

namespace Sparse

def plan : FilterModel := { id := some "mine", name := "a", region := "r", description := some "" }

def info : FilterInfo :=
  { id := "x", name := "a", type := .ip, region := "r", includeByDefault := false,
    description := some "", rules := [] }

def created : FilterModel := { id := some "x", name := "a", region := "r" }

/-- The answer to the create. -/
def answered : AnsweredCall :=
  ⟨.createFilter plan.creation,
    (.ok ⟨.created, some info, []⟩ : Except ApiError (Response FilterInfo))⟩

/-- The filter is created, and the delete does not get as far as a call. -/
def filterRun : List (CarriedOut FilterModel) :=
  [⟨true, .create plan, [answered], ⟨some created, []⟩⟩,
    ⟨false, .delete, [], ⟨some created, [ResourceError.unconfigured.diagnostic]⟩⟩]

theorem filterRun_passes :
    Passes (CarriedOut.Happens filterResource) none filterRun (some created) :=
  .cons ⟨.cons .nil, rfl⟩ (.cons ⟨.nil, rfl⟩ .nil)

def imported : Association :=
  { id := some "p-x", projectId := "p", projectType := "security", filterId := "x" }

/-- What comes of the read. -/
def unanswered : AnsweredCall :=
  ⟨.getProject .security "p",
    (.error (.transport .unwritable) : Except ApiError (Response Project))⟩

/-- The association is imported, and its project is not reached. -/
def associationRun : List (CarriedOut Association) :=
  [⟨false, .importState "p,security,x", [], ⟨some imported, []⟩⟩,
    ⟨true, .read, [unanswered],
      ⟨some imported,
        [(ResourceError.transport .readProject (.transport .unwritable)).diagnostic]⟩⟩]

theorem associationRun_passes :
    Passes (CarriedOut.Happens associationResource) none associationRun (some imported) :=
  .cons ⟨.nil, rfl⟩ (.cons ⟨.cons .nil, rfl⟩ .nil)

end Sparse

/-- **An empty description is none** once it is tracked, and an id of the plan
is not the one that is tracked. -/
theorem tracked_wellFormed_sparse :
    Sparse.created.description = none ∧ Sparse.created.id ≠ Sparse.plan.id ∧
    Sparse.created.id.isSome = true ∧
    Sparse.imported.id = some (Association.identity "p" "x") ∧ Sparse.imported.validate = [] := by
  have hfilter := (tracked_wellFormed.1 none Sparse.filterRun (some Sparse.created) (.inl rfl)
    Sparse.filterRun_passes).1 Sparse.created rfl
  have hassociation := (tracked_wellFormed.2 Sparse.associationRun (some Sparse.imported)
    Sparse.associationRun_passes).1 Sparse.imported rfl
  exact ⟨rfl, by decide, hfilter.1, hassociation⟩

end TrafficGate
