import TrafficGate.Proofs.Filter.Plan
/-!
# The operations of a filter, call by call

Every operation on a filter either ends before it asks for anything or
makes one call and ends with what came of it. Each has one equation here
(`calls_create`, `calls_read`, `calls_update`, `calls_delete`); what is
done with the answer is a function of the answer alone.
-/

namespace TrafficGate

namespace FilterResource

variable {configured : Bool} {plan tracked : FilterModel} {state : Option FilterModel}

/-! ## What is done with an answer -/

/-- What comes of an operation that tracks what the API reports. -/
def recorded (before : Option FilterModel) (r : Except ResourceError FilterInfo) :
    Outcome FilterModel :=
  Outcome.orError before (fun info => ⟨some (.ofInfo info), []⟩) r

/-- What comes of a create. -/
def created (state : Option FilterModel) (r : Response FilterInfo) : Outcome FilterModel :=
  recorded state (expectInfo .createFilter .created r)

/-- What comes of a read. -/
def readBack (tracked : FilterModel) (r : Response FilterInfo) : Outcome FilterModel :=
  if r.status = .notFound then ⟨none, []⟩
  else recorded (some tracked) (expectInfo .readFilter .ok r)

/-- What comes of an update of the filter of the given id. -/
def updated (tracked : FilterModel) (id : String) (r : Response FilterInfo) :
    Outcome FilterModel :=
  if r.status = .notFound then ⟨some tracked, [(ResourceError.filterNotFound id).diagnostic]⟩
  else recorded (some tracked) (expectInfo .updateFilter .ok r)

/-- What comes of a delete. -/
def deleted (tracked : FilterModel) (r : Response Empty) : Outcome FilterModel :=
  if r.status ∈ [Status.ok, .noContent, .notFound] then ⟨none, []⟩
  else ⟨some tracked, [(ResourceError.ofResponse .deleteFilter r).diagnostic]⟩

/-! ## One equation each -/

/-- What is done with a payload asks for nothing. -/
theorem calls_expectInfo {β : Type} (action : Action) (expected : Status)
    (r : Response FilterInfo) (f : FilterInfo → β) :
    Attempt.calls (do
      let info ← expectInfo action expected r
      return f info) = .done ((expectInfo action expected r).map f) := by
  rw [Attempt.calls_bind, Attempt.calls_liftExcept]
  cases expectInfo action expected r <;> rfl

/-- A create with a plan that has no problem is an attempt. -/
theorem calls_create_valid (configured : Bool) (hv : plan.validate = [])
    (state : Option FilterModel) :
    (create configured plan state).calls = (attemptCreate configured plan).calls.bind fun r =>
      .done (Outcome.orError state (fun model => ⟨some model, []⟩) r) := by
  simp only [create, hv, Diagnostics.hasError_nil, Bool.false_eq_true, if_false,
    List.nil_append]
  exact Attempt.calls_run_bind (fun _ => rfl) (fun _ => rfl)

/-- **A create is one call**, with a client and a plan that has no
problem. -/
theorem calls_create_of_validate (hv : plan.validate = []) (state : Option FilterModel) :
    (create true plan state).calls = .ask (.createFilter plan.creation) fun o =>
      .done (Outcome.orError state (created state) (Attempt.received .createFilter o)) := by
  rw [calls_create_valid true hv, attemptCreate, Attempt.calls_bind, Attempt.calls_requireClient,
    if_pos rfl, Dialogue.done_bind, Attempt.goOn_ok]
  exact Attempt.calls_call_bind fun r => ⟨_, calls_expectInfo .., Outcome.orError_map⟩

/-- A plan with an error is not carried out. -/
theorem calls_create_of_hasError (configured : Bool) (hv : plan.validate.hasError = true)
    (state : Option FilterModel) :
    (create configured plan state).calls = .done ⟨state, plan.validate⟩ := by
  simp [create, hv]

/-- **A create fails at once, or it is one call.** -/
theorem calls_create (configured : Bool) (plan : FilterModel) (state : Option FilterModel) :
    (∃ ds, Diagnostics.hasError ds = true ∧
      (create configured plan state).calls = .done ⟨state, ds⟩) ∨
    (configured = true ∧ plan.validate = [] ∧
      (create configured plan state).calls = .ask (.createFilter plan.creation) fun o =>
        .done (Outcome.orError state (created state) (Attempt.received .createFilter o))) := by
  by_cases hv : plan.validate.hasError = true
  · exact .inl ⟨plan.validate, hv, calls_create_of_hasError configured hv state⟩
  have hnil := FilterModel.validate_eq_nil (Bool.not_eq_true _ ▸ hv)
  cases configured with
  | true => exact .inr ⟨rfl, hnil, calls_create_of_validate hnil state⟩
  | false =>
    refine .inl ⟨[ResourceError.unconfigured.diagnostic], by simp, ?_⟩
    rw [calls_create_valid false hnil, attemptCreate, Attempt.calls_bind,
      Attempt.calls_requireClient]
    rfl

/-- An attempt that needs the id of what is tracked, and a client, and has
both. -/
theorem calls_trackedId_bind_of_id {β : Type} {id : String} (hid : tracked.id = some id)
    (f : String → Attempt β) :
    Attempt.calls (do
        let id ← trackedId tracked
        Attempt.requireClient true
        f id) = (f id).calls := by
  rw [Attempt.calls_bind, Attempt.calls_liftExcept, Dialogue.done_bind, trackedId, hid]
  rw [Attempt.goOn_ok, Attempt.calls_bind, Attempt.calls_requireClient]
  rfl

/-- If it has not, it fails at once. -/
theorem calls_trackedId_bind {β : Type} (configured : Bool) (tracked : FilterModel)
    (f : String → Attempt β) :
    (∃ e : ResourceError, Attempt.calls (do
        let id ← trackedId tracked
        Attempt.requireClient configured
        f id) = .done (.error e)) ∨
    (configured = true ∧ ∃ id, tracked.id = some id ∧ Attempt.calls (do
        let id ← trackedId tracked
        Attempt.requireClient configured
        f id) = (f id).calls) := by
  cases hid : tracked.id with
  | none =>
    rw [Attempt.calls_bind, Attempt.calls_liftExcept, Dialogue.done_bind, trackedId, hid]
    exact .inl ⟨_, rfl⟩
  | some id =>
    cases configured with
    | false =>
      rw [Attempt.calls_bind, Attempt.calls_liftExcept, Dialogue.done_bind, trackedId, hid]
      exact .inl ⟨_, rfl⟩
    | true => exact .inr ⟨rfl, id, rfl, calls_trackedId_bind_of_id hid f⟩

/-- A read of what is tracked is its attempt. -/
theorem calls_read_some (configured : Bool) (tracked : FilterModel) :
    (read configured (some tracked)).calls =
      (attemptRead configured tracked).calls.bind fun r =>
        .done (Outcome.orError (some tracked) (fun model => ⟨model, []⟩) r) :=
  Attempt.calls_run_bind (fun model => by cases model <;> rfl) (fun _ => rfl)

/-- **A read of a filter with an id is one call.** -/
theorem calls_read_of_id {id : String} (hid : tracked.id = some id) :
    (read true (some tracked)).calls = .ask (.getFilter id) fun o =>
      .done (Outcome.orError (some tracked) (readBack tracked)
        (Attempt.received .readFilter o)) := by
  rw [calls_read_some, attemptRead, calls_trackedId_bind_of_id hid]
  refine Attempt.calls_call_bind fun (r : Response FilterInfo) => ?_
  by_cases hr : r.status = .notFound
  · simp only [hr, readBack, if_true]
    exact ⟨_, rfl, rfl⟩
  · simp only [hr, readBack, if_false]
    exact ⟨_, calls_expectInfo .., Outcome.orError_map⟩

/-- **A read of what is tracked is one call**, if it comes to that. -/
theorem calls_read (configured : Bool) (tracked : FilterModel) :
    (∃ e : ResourceError, (read configured (some tracked)).calls =
      .done ⟨some tracked, [e.diagnostic]⟩) ∨
    (configured = true ∧ ∃ id, tracked.id = some id ∧
      (read configured (some tracked)).calls = .ask (.getFilter id) fun o =>
        .done (Outcome.orError (some tracked) (readBack tracked)
          (Attempt.received .readFilter o))) := by
  rcases calls_trackedId_bind configured tracked _ with ⟨e, he⟩ | ⟨rfl, id, hid, -⟩
  · exact .inl ⟨e, by rw [calls_read_some, attemptRead, he]; rfl⟩
  · exact .inr ⟨rfl, id, hid, calls_read_of_id hid⟩

theorem calls_update_of_hasError (configured : Bool) (hv : plan.validate.hasError = true)
    (state : Option FilterModel) :
    (update configured plan state).calls = .done ⟨state, plan.validate⟩ := by
  simp [update, hv]

/-- Nothing that is not tracked can be changed. -/
theorem calls_update_none (configured : Bool) (hv : plan.validate = []) :
    (update configured plan none).calls =
      .done ⟨none,
        [(ResourceError.invalidAttribute "id" "traffic filter is not tracked").diagnostic]⟩ := by
  simp [update, hv]

/-- An update of what is tracked attempts a change, if there is one to
make. -/
theorem calls_update_some (configured : Bool) (hv : plan.validate = []) :
    (update configured plan (some tracked)).calls =
      if plan.planChange tracked = .none then .done ⟨some tracked, []⟩
      else (attemptUpdate configured plan tracked).calls.bind fun r =>
        .done (Outcome.orError (some tracked) (fun model => ⟨some model, []⟩) r) := by
  by_cases hchange : plan.planChange tracked = .none
  · simp [update, hv, hchange]
  · simp only [update, hv, hchange, Diagnostics.hasError_nil, Bool.false_eq_true, if_false,
      List.nil_append]
    exact Attempt.calls_run_bind (fun _ => rfl) (fun _ => rfl)

/-- A change that is not possible in place is not attempted. -/
theorem calls_attemptUpdate_of_replaced (configured : Bool) {attributes : List FixedAttribute}
    (h : plan.replacedAttributes tracked = attributes) (hne : attributes ≠ []) :
    (attemptUpdate configured plan tracked).calls =
      .done (.error (.replacementRequired (attributes.map FixedAttribute.name))) := by
  obtain ⟨a, as, rfl⟩ := List.exists_cons_of_ne_nil hne
  simp only [attemptUpdate, h]
  rfl

/-- An attempt at a change in place. -/
theorem attemptUpdate_of_fixed (configured : Bool) (h : plan.replacedAttributes tracked = []) :
    attemptUpdate configured plan tracked = (do
      let id ← trackedId tracked
      Attempt.requireClient configured
      let response ← Attempt.call .updateFilter (.patchFilter id plan.patch)
      if response.status = .notFound then throw (.filterNotFound id)
      let info ← expectInfo .updateFilter .ok response
      return .ofInfo info) := by
  simp only [attemptUpdate, h]
  rfl

/-- **A change in place is one call.** -/
theorem calls_update_of_tracked {id : String} (hv : plan.validate = [])
    (hid : tracked.id = some id) (hfixed : plan.replacedAttributes tracked = []) :
    (update true plan (some tracked)).calls =
      if plan.planChange tracked = .none then .done ⟨some tracked, []⟩
      else .ask (.patchFilter id plan.patch) fun o =>
        .done (Outcome.orError (some tracked) (updated tracked id)
          (Attempt.received .updateFilter o)) := by
  rw [calls_update_some true hv, attemptUpdate_of_fixed true hfixed,
    calls_trackedId_bind_of_id hid]
  congr 1
  refine Attempt.calls_call_bind fun (r : Response FilterInfo) => ?_
  by_cases hr : r.status = .notFound
  · simp only [hr, updated, if_true]
    exact ⟨_, rfl, rfl⟩
  · simp only [hr, updated, if_false]
    exact ⟨_, calls_expectInfo .., Outcome.orError_map⟩

/-- **An update ends at once, or it is one call.** At once means with an
error, or because nothing has to change. -/
theorem calls_update (configured : Bool) (plan : FilterModel) (state : Option FilterModel) :
    (∃ ds, Diagnostics.hasError ds = true ∧
      (update configured plan state).calls = .done ⟨state, ds⟩) ∨
    (plan.validate = [] ∧ ∃ tracked, state = some tracked ∧ plan.planChange tracked = .none ∧
      (update configured plan state).calls = .done ⟨state, []⟩) ∨
    (configured = true ∧ plan.validate = [] ∧ ∃ tracked id, state = some tracked ∧
      tracked.id = some id ∧ plan.replacedAttributes tracked = [] ∧
      plan.planChange tracked ≠ .none ∧
      (update configured plan state).calls = .ask (.patchFilter id plan.patch) fun o =>
        .done (Outcome.orError state (updated tracked id)
          (Attempt.received .updateFilter o))) := by
  by_cases hv : plan.validate.hasError = true
  · exact .inl ⟨plan.validate, hv, calls_update_of_hasError configured hv state⟩
  have hnil := FilterModel.validate_eq_nil (Bool.not_eq_true _ ▸ hv)
  -- an update of nothing, one that changes nothing, one that replaces, and one in place
  obtain _ | tracked := state
  · exact .inl ⟨_, by simp, calls_update_none configured hnil⟩
  by_cases hchange : plan.planChange tracked = .none
  · refine .inr (.inl ⟨hnil, tracked, rfl, hchange, ?_⟩)
    rw [calls_update_some configured hnil, if_pos hchange]
  have hupdate : (update configured plan (some tracked)).calls =
      (attemptUpdate configured plan tracked).calls.bind fun r =>
        .done (Outcome.orError (some tracked) (fun model => ⟨some model, []⟩) r) := by
    rw [calls_update_some configured hnil, if_neg hchange]
  cases hreplaced : plan.replacedAttributes tracked with
  | cons a as =>
    refine .inl ⟨[(ResourceError.replacementRequired
      ((a :: as).map FixedAttribute.name)).diagnostic], by simp, ?_⟩
    rw [hupdate, calls_attemptUpdate_of_replaced configured hreplaced (List.cons_ne_nil a as)]
    rfl
  | nil =>
    rcases calls_trackedId_bind configured tracked _ with ⟨e, he⟩ | ⟨rfl, id, hid, -⟩
    · refine .inl ⟨[e.diagnostic], by simp, ?_⟩
      rw [hupdate, attemptUpdate_of_fixed configured hreplaced, he]
      rfl
    · refine .inr (.inr ⟨rfl, hnil, tracked, id, rfl, hid, hreplaced, hchange, ?_⟩)
      rw [calls_update_of_tracked hnil hid hreplaced, if_neg hchange]

/-- A delete of what is tracked is its attempt. -/
theorem calls_delete_some (configured : Bool) (tracked : FilterModel) :
    (delete configured (some tracked)).calls =
      (attemptDelete configured tracked).calls.bind fun r =>
        .done (Outcome.orError (some tracked) (fun _ => ⟨none, []⟩) r) :=
  Attempt.calls_run_bind (fun _ => rfl) (fun _ => rfl)

/-- **A delete of a filter with an id is one call.** -/
theorem calls_delete_of_id {id : String} (hid : tracked.id = some id) :
    (delete true (some tracked)).calls = .ask (.deleteFilter id) fun o =>
      .done (Outcome.orError (some tracked) (deleted tracked)
        (Attempt.received .deleteFilter o)) := by
  rw [calls_delete_some, attemptDelete, calls_trackedId_bind_of_id hid]
  refine Attempt.calls_call_bind fun (r : Response Empty) => ?_
  by_cases hr : r.status ∈ [Status.ok, .noContent, .notFound]
  · simp only [hr, deleted, if_true]
    exact ⟨_, rfl, rfl⟩
  · simp only [hr, deleted, if_false]
    exact ⟨_, rfl, rfl⟩

/-- **A delete of what is tracked is one call**, if it comes to that. -/
theorem calls_delete (configured : Bool) (tracked : FilterModel) :
    (∃ e : ResourceError, (delete configured (some tracked)).calls =
      .done ⟨some tracked, [e.diagnostic]⟩) ∨
    (configured = true ∧ ∃ id, tracked.id = some id ∧
      (delete configured (some tracked)).calls = .ask (.deleteFilter id) fun o =>
        .done (Outcome.orError (some tracked) (deleted tracked)
          (Attempt.received .deleteFilter o))) := by
  rcases calls_trackedId_bind configured tracked _ with ⟨e, he⟩ | ⟨rfl, id, hid, -⟩
  · exact .inl ⟨e, by rw [calls_delete_some, attemptDelete, he]; rfl⟩
  · exact .inr ⟨rfl, id, hid, calls_delete_of_id hid⟩

end FilterResource

end TrafficGate
