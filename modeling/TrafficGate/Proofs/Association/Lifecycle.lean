import TrafficGate.Resource.Association
import TrafficGate.Proofs.Association.Settling
import TrafficGate.Proofs.Resource.Operation
/-!
# The operations of an association, call by call

A create and a delete are attempts to settle one entry, with the work on
the tracked model before and after them; a read is one call, and an update
or an import makes none. Each operation has one equation here
(`calls_create`, `calls_read`, `calls_delete`). `Operation.settling?` says
which entry an operation is out to settle, and how, and the equations are
summed up by it (`calls_of_settling`, `calls_of_no_settling`).
-/

namespace TrafficGate

namespace Association

variable {a : Association}

/-- The project of an association, if its kind is known. -/
def project? (a : Association) : Option ProjectKey :=
  (ProjectKind.ofName? a.projectType).map fun kind => ⟨kind, a.projectId⟩

theorem kind_eq (a : Association) :
    a.kind = match a.project? with
      | some p => .ok p.kind
      | none => .error (.unknownKind a.projectType) := by
  unfold kind project?
  cases ProjectKind.ofName? a.projectType <;> rfl

theorem id_of_project? {p : ProjectKey} (h : a.project? = some p) : a.projectId = p.id := by
  obtain ⟨kind, -, rfl⟩ := Option.map_eq_some_iff.1 h
  rfl

theorem emptyAttribute_eq_nil {name value : String}
    (h : (emptyAttribute name value).hasError = false) : emptyAttribute name value = [] := by
  unfold emptyAttribute at h ⊢
  split
  · rename_i hempty
    simp [hempty] at h
  · rfl

/-- **A plan without an error has no problem at all**, and a project. -/
theorem valid_of_not_hasError (h : a.validate.hasError = false) :
    a.validate = [] ∧ ∃ p, a.project? = some p := by
  simp only [validate, Diagnostics.hasError_append, Bool.or_eq_false_iff, kind_eq] at h ⊢
  obtain ⟨⟨h₁, h₂⟩, h₃⟩ := h
  rw [emptyAttribute_eq_nil h₁, emptyAttribute_eq_nil h₃]
  cases hp : a.project? with
  | none => simp [hp] at h₂
  | some p => exact ⟨rfl, p, rfl⟩

end Association

/-- What an attempt to settle an entry has to say is no error. -/
theorem Settling.hasError_of_gives {p : ProjectKey} {s : Settling} {log : List AnsweredCall}
    {v : Transition × Diagnostics} (h : Dialogue.Gives (s.attempt p).calls log (.ok v)) :
    v.2.hasError = false := by
  rcases gives_attempt.1 h with ⟨o, -, hstage⟩ | ⟨o, target, o', -, -, hresult⟩
  · rw [(afterReading_eq_ok hstage).1]
    rfl
  · obtain ⟨m, -, rfl⟩ := afterWriting_eq_ok hresult.symm
    unfold ProjectKey.remarks
    split
    · rfl
    · rfl

namespace AssociationResource

variable {configured : Bool} {plan tracked : Association} {state : Option Association}

/-- What comes of an operation once its entry is settled, or not. -/
def concluded (before after : Option Association)
    (r : Except ResourceError (Transition × Diagnostics)) : Outcome Association :=
  Outcome.orError before (fun v => ⟨after, v.2⟩) r

/-- What comes of a read. -/
def readBack (tracked : Association) : Except ResourceError Membership → Outcome Association
  | .ok m => ⟨if m.contains tracked.filterId then some tracked else none, []⟩
  | .error (.projectNotFound ..) => ⟨none, []⟩
  | .error e => ⟨some tracked, [e.diagnostic]⟩

/-! ## One equation each -/

theorem calls_projectOf (configured : Bool) (a : Association) :
    (projectOf configured a).calls = .done (match a.project? with
      | some p => if configured then .ok p else .error .unconfigured
      | none => .error (.unknownKind a.projectType)) := by
  simp only [projectOf, Attempt.calls_bind, Attempt.calls_liftExcept, Dialogue.done_bind,
    Association.kind_eq]
  cases hp : a.project? with
  | none => rfl
  | some p =>
    cases configured with
    | false => rfl
    | true => simp [Association.id_of_project? hp]

/-- Where there is a client and the kind is known, an attempt that needs the
project goes on with it. -/
theorem calls_projectOf_bind {β : Type} {a : Association} {p : ProjectKey}
    (hp : a.project? = some p) (f : ProjectKey → Attempt β) :
    (projectOf true a >>= f).calls = (f p).calls := by
  rw [Attempt.calls_bind, calls_projectOf, hp]
  rfl

/-- Otherwise it fails at once, whatever it was to do. -/
theorem project?_or_fails (configured : Bool) (a : Association) :
    (configured = true ∧ ∃ p, a.project? = some p) ∨
    ∃ e, ∀ {β : Type} (f : ProjectKey → Attempt β),
      (projectOf configured a >>= f).calls = .done (.error e) := by
  cases hp : a.project? with
  | none =>
    refine .inr ⟨.unknownKind a.projectType, fun f => ?_⟩
    rw [Attempt.calls_bind, calls_projectOf, hp]
    rfl
  | some p =>
    cases configured with
    | true => exact .inl ⟨rfl, p, rfl⟩
    | false =>
      refine .inr ⟨.unconfigured, fun f => ?_⟩
      rw [Attempt.calls_bind, calls_projectOf, hp]
      rfl

/-- A plan with an error is not carried out. -/
theorem calls_create_of_hasError (configured : Bool) (hv : plan.validate.hasError = true)
    (state : Option Association) :
    (create configured plan state).calls = .done ⟨state, plan.validate⟩ := by
  simp [create, hv]

/-- A create of a plan without problems is its attempt. -/
theorem calls_create_of_validate (configured : Bool) (hv : plan.validate = [])
    (state : Option Association) :
    (create configured plan state).calls =
      (attemptCreate configured plan).calls.bind fun r =>
        .done (Outcome.orError state (fun v => ⟨some v.1, v.2⟩) r) := by
  simp only [create, hv, Diagnostics.hasError_nil, Bool.false_eq_true, if_false,
    List.nil_append]
  exact Attempt.calls_run_bind (fun _ => rfl) (fun _ => rfl)

/-- **A create of a valid plan settles its entry.** -/
theorem calls_create_of_project? {p : ProjectKey} (hv : plan.validate = [])
    (hp : plan.project? = some p) (state : Option Association) :
    (create true plan state).calls =
      (Settling.attempt p ⟨.present, plan.filterId⟩).calls.bind fun r =>
        .done (concluded state (some plan.withId) r) := by
  rw [calls_create_of_validate true hv, attemptCreate, calls_projectOf_bind hp,
    Attempt.calls_bind, Dialogue.bind_assoc]
  congr 1
  funext r
  cases r <;> rfl

/-- **A create fails at once, or it settles its entry.** -/
theorem calls_create (configured : Bool) (plan : Association) (state : Option Association) :
    (∃ ds, Diagnostics.hasError ds = true ∧
      (create configured plan state).calls = .done ⟨state, ds⟩) ∨
    (configured = true ∧ plan.validate = [] ∧ ∃ p, plan.project? = some p ∧
      (create configured plan state).calls =
        (Settling.attempt p ⟨.present, plan.filterId⟩).calls.bind fun r =>
          .done (concluded state (some plan.withId) r)) := by
  by_cases hv : plan.validate.hasError = true
  · exact .inl ⟨plan.validate, hv, calls_create_of_hasError configured hv state⟩
  -- every problem is an error, so a plan that passes adds nothing to what is reported
  obtain ⟨hnil, -⟩ := Association.valid_of_not_hasError (Bool.not_eq_true _ ▸ hv)
  rcases project?_or_fails configured plan with ⟨rfl, p, hp⟩ | ⟨e, he⟩
  · exact .inr ⟨rfl, hnil, p, hp, calls_create_of_project? hnil hp state⟩
  · refine .inl ⟨[e.diagnostic], by simp, ?_⟩
    rw [calls_create_of_validate configured hnil, attemptCreate, he]
    rfl

/-- A delete of what is tracked is its attempt. -/
theorem calls_delete_some (configured : Bool) (tracked : Association) :
    (delete configured (some tracked)).calls =
      (attemptDelete configured tracked).calls.bind fun r =>
        .done (Outcome.orError (some tracked) (fun warnings => ⟨none, warnings⟩) r) :=
  Attempt.calls_run_bind (fun _ => rfl) (fun _ => rfl)

/-- **A delete of what is tracked settles its entry**, if its kind is
known. -/
theorem calls_delete_of_project? {p : ProjectKey} (hp : tracked.project? = some p) :
    (delete true (some tracked)).calls =
      (Settling.attempt p ⟨.absent, tracked.filterId⟩).calls.bind fun r =>
        .done (concluded (some tracked) none r) := by
  rw [calls_delete_some, attemptDelete, calls_projectOf_bind hp,
    Attempt.calls_bind, Dialogue.bind_assoc]
  congr 1
  funext r
  cases r <;> rfl

/-- **A delete of what is tracked fails at once, or it settles its entry.** -/
theorem calls_delete (configured : Bool) (tracked : Association) :
    (∃ e : ResourceError, (delete configured (some tracked)).calls =
      .done ⟨some tracked, [e.diagnostic]⟩) ∨
    (configured = true ∧ ∃ p, tracked.project? = some p ∧
      (delete configured (some tracked)).calls =
        (Settling.attempt p ⟨.absent, tracked.filterId⟩).calls.bind fun r =>
          .done (concluded (some tracked) none r)) := by
  rcases project?_or_fails configured tracked with ⟨rfl, p, hp⟩ | ⟨e, he⟩
  · exact .inr ⟨rfl, p, hp, calls_delete_of_project? hp⟩
  · refine .inl ⟨e, ?_⟩
    rw [calls_delete_some, attemptDelete, he]
    rfl

/-- A read of what is tracked is its attempt. -/
theorem calls_read_some (configured : Bool) (tracked : Association) :
    (read configured (some tracked)).calls =
      (attemptRead configured tracked).calls.bind fun r => .done (Outcome.orError (some tracked)
        (fun present => ⟨if present then some tracked else none, []⟩) r) :=
  Attempt.calls_run_bind (fun present => by cases present <;> rfl) (fun _ => rfl)

/-- **A read of what is tracked is one call**, if its kind is known. -/
theorem calls_read_of_project? {p : ProjectKey} (hp : tracked.project? = some p) :
    (read true (some tracked)).calls = .ask p.reading fun o =>
      .done (readBack tracked (p.reported .readProject o)) := by
  rw [calls_read_some, attemptRead, calls_projectOf_bind hp,
    Attempt.calls_tryCatch, ProjectKey.isPresent, Attempt.calls_bind,
    ProjectKey.calls_fetchMembership]
  simp only [Dialogue.ask_bind, Dialogue.done_bind]
  congr 1
  funext o
  -- of all errors only a project that is not found is caught
  cases p.reported .readProject o with
  | ok m => rfl
  | error e => cases e <;> rfl

/-- **A read of what is tracked is one call**, if it comes to that. -/
theorem calls_read (configured : Bool) (tracked : Association) :
    (∃ e : ResourceError, (read configured (some tracked)).calls =
      .done ⟨some tracked, [e.diagnostic]⟩) ∨
    (configured = true ∧ ∃ p, tracked.project? = some p ∧
      (read configured (some tracked)).calls = .ask p.reading fun o =>
        .done (readBack tracked (p.reported .readProject o))) := by
  rcases project?_or_fails configured tracked with ⟨rfl, p, hp⟩ | ⟨e, he⟩
  · exact .inr ⟨rfl, p, hp, calls_read_of_project? hp⟩
  · refine .inl ⟨e, ?_⟩
    rw [calls_read_some, attemptRead, he]
    rfl

end AssociationResource

/-! ## The entry of an operation -/

/-- The entry of an association, as it is wanted. -/
def Association.settling? (a : Association) (aim : Aim) : Option (ProjectKey × Settling) :=
  a.project?.map fun p => (p, ⟨aim, a.filterId⟩)

/-- The entry that an operation is out to settle: a create that of its
plan, a delete that of what is tracked. -/
def Operation.settling? (op : Operation Association) (before : Option Association) :
    Option (ProjectKey × Settling) :=
  match op with
  | .create plan => plan.settling? .present
  | .delete => before.bind fun tracked => tracked.settling? .absent
  | .read => none
  | .update _ => none
  | .importState _ => none

/-- What is tracked once the entry of an operation is settled. -/
def Operation.onceSettled (op : Operation Association) : Option Association :=
  match op with
  | .create plan => some plan.withId
  | _ => none

namespace AssociationResource

variable {op : Operation Association} {before : Option Association} {p : ProjectKey}
  {s : Settling}

/-- **An operation with an entry fails at once, or it settles it.** -/
theorem calls_of_settling (configured : Bool) (h : op.settling? before = some (p, s)) :
    (∃ ds, Diagnostics.hasError ds = true ∧
      ((associationResource configured).carryOut before op).calls = .done ⟨before, ds⟩) ∨
    (configured = true ∧
      ((associationResource configured).carryOut before op).calls =
        (s.attempt p).calls.bind fun r => .done (concluded before op.onceSettled r)) := by
  cases op with
  | create plan =>
    obtain ⟨q, hq, heq⟩ := Option.map_eq_some_iff.1 h
    obtain ⟨rfl, rfl⟩ := Prod.mk.inj heq
    rcases calls_create configured plan before with hfails | ⟨hc, -, p', hp', hcalls⟩
    · exact .inl hfails
    · obtain rfl := Option.some.inj (hq.symm.trans hp')
      exact .inr ⟨hc, hcalls⟩
  | delete =>
    obtain ⟨tracked, rfl, hentry⟩ := Option.bind_eq_some_iff.1 h
    obtain ⟨q, hq, heq⟩ := Option.map_eq_some_iff.1 hentry
    obtain ⟨rfl, rfl⟩ := Prod.mk.inj heq
    rcases calls_delete configured tracked with ⟨e, hcalls⟩ | ⟨hc, p', hp', hcalls⟩
    · exact .inl ⟨[e.diagnostic], by simp, hcalls⟩
    · obtain rfl := Option.some.inj (hq.symm.trans hp')
      exact .inr ⟨hc, hcalls⟩
  | read => cases h
  | update plan => cases h
  | importState key => cases h

/-- Only a create wants an entry to be there. -/
theorem create_of_settling (h : op.settling? before = some (p, s)) (haim : s.aim = .present) :
    ∃ plan, op = .create plan ∧ plan.filterId = s.filterId := by
  cases op with
  | create plan =>
    obtain ⟨q, -, heq⟩ := Option.map_eq_some_iff.1 h
    obtain ⟨rfl, rfl⟩ := Prod.mk.inj heq
    exact ⟨plan, rfl, rfl⟩
  | delete =>
    obtain ⟨tracked, -, hentry⟩ := Option.bind_eq_some_iff.1 h
    obtain ⟨q, -, heq⟩ := Option.map_eq_some_iff.1 hentry
    obtain ⟨rfl, rfl⟩ := Prod.mk.inj heq
    cases haim
  | read => cases h
  | update plan => cases h
  | importState key => cases h

/-- **One without an entry writes nothing**: it makes no call, or it reads. -/
theorem calls_of_no_settling (configured : Bool) (h : op.settling? before = none) :
    (∃ out, ((associationResource configured).carryOut before op).calls = .done out) ∨
    (∃ (q : ProjectKey) (f : q.reading.Outcome → Outcome Association),
      ((associationResource configured).carryOut before op).calls =
        .ask q.reading fun o => .done (f o)) := by
  cases op with
  | create plan =>
    rcases calls_create configured plan before with ⟨ds, -, hcalls⟩ | ⟨-, -, p, hp, -⟩
    · exact .inl ⟨_, hcalls⟩
    · simp [Operation.settling?, Association.settling?, hp] at h
  | delete =>
    obtain _ | tracked := before
    · exact .inl ⟨_, rfl⟩
    rcases calls_delete configured tracked with ⟨e, hcalls⟩ | ⟨-, p, hp, -⟩
    · exact .inl ⟨_, hcalls⟩
    · simp [Operation.settling?, Association.settling?, hp] at h
  | read =>
    obtain _ | tracked := before
    · exact .inl ⟨_, rfl⟩
    rcases calls_read configured tracked with ⟨e, hcalls⟩ | ⟨-, p, -, hcalls⟩
    · exact .inl ⟨_, hcalls⟩
    · exact .inr ⟨p, _, hcalls⟩
  | update plan => exact .inl ⟨_, rfl⟩
  | importState key => exact .inl ⟨_, rfl⟩

end AssociationResource

end TrafficGate
