import Mathlib.Data.List.Forall2
import Mathlib.Data.Stream.Defs
import TrafficGate.Client
import TrafficGate.Proofs.Association.Lifecycle
/-!
# One course for all kinds of project

An association lives through creates, reads and deletes. Two kinds of
project are told apart by where the calls go and by the name in some
messages, and by nothing else: what is asked, what is written and what is
tracked is the same for both.

Dialogues that differ in the kind alone are `Parallel`, question by
question. That composes along `bind`, so it is shown for one attempt,
then for one operation, and holds of every course of operations; and two
parallel dialogues that get the same answers have the same log, up to the
kind (`Parallel.run`).
-/

namespace TrafficGate

open List (Forall₂)

/-! ## Up to the kind -/

/-- The association, with a project of this kind. -/
def Association.onKind (k : ProjectKind) (a : Association) : Association :=
  { a with projectType := k.name }

/-- A call and what came of it, for a project of this kind. -/
def AnsweredCall.onKind (k : ProjectKind) : AnsweredCall → AnsweredCall
  | ⟨.getProject _ id, o⟩ => ⟨.getProject k id, o⟩
  | ⟨.patchProject _ id patch, o⟩ => ⟨.patchProject k id patch, o⟩
  | e => e

/-- Calls for the project of one id, of either kind. They are spelled out
alike but for the kind in the URL. -/
structure Call.Alike (k₁ k₂ : ProjectKind) (c₁ c₂ : Call) : Prop where
  segments : ∃ id, c₁.segments = ["projects", k₁.name, id] ∧
    c₂.segments = ["projects", k₂.name, id]
  method : c₁.method = c₂.method
  body : c₁.body? = c₂.body?
  successStatus : c₁.successStatus = c₂.successStatus

/-- Diagnostics that differ at most in the title of the kind. -/
structure Diagnostic.Alike (k₁ k₂ : ProjectKind) (d₁ d₂ : Diagnostic) : Prop where
  severity : d₁.severity = d₂.severity
  summary : d₁.summary = d₂.summary
  detail : d₁.detail = d₂.detail ∨ ∃ before after,
    d₁.detail = before ++ k₁.title ++ after ∧ d₂.detail = before ++ k₂.title ++ after

/-- Outcomes that differ in what is tracked by the project type, and in
what is told by the title. -/
structure Outcome.Alike (k₁ k₂ : ProjectKind) (o₁ o₂ : Outcome Association) : Prop where
  state : ∃ tracked : Option Association,
    o₁.state = tracked.map (.onKind k₁) ∧ o₂.state = tracked.map (.onKind k₂)
  diagnostics : Forall₂ (Diagnostic.Alike k₁ k₂) o₁.diagnostics o₂.diagnostics

variable {k₁ k₂ : ProjectKind}

theorem Diagnostics.alike_refl (ds : Diagnostics) : Forall₂ (Diagnostic.Alike k₁ k₂) ds ds :=
  List.forall₂_same.2 fun _ _ => ⟨rfl, rfl, .inl rfl⟩

/-! ## Parallel dialogues -/

namespace CallM

variable {α β : Type} {R : α → α → Prop} {S : β → β → Prop} {d₁ d₂ : CallM α}

/-- Dialogues that ask the same of projects of two kinds, and end with
related results whenever they get the same answers. -/
inductive Parallel (k₁ k₂ : ProjectKind) (R : α → α → Prop) : CallM α → CallM α → Prop
  | done {a b : α} : R a b → Parallel k₁ k₂ R (.done a) (.done b)
  /-- Both ask for the project of the id. -/
  | read {id : String} {next₁ next₂ : Except ApiError (Response Project) → CallM α} :
      (∀ o, Parallel k₁ k₂ R (next₁ o) (next₂ o)) →
      Parallel k₁ k₂ R (.ask (.getProject k₁ id) next₁) (.ask (.getProject k₂ id) next₂)
  /-- Both replace its list, by the same one. -/
  | write {id : String} {patch : ProjectPatch}
      {next₁ next₂ : Except ApiError (Response Project) → CallM α} :
      (∀ o, Parallel k₁ k₂ R (next₁ o) (next₂ o)) →
      Parallel k₁ k₂ R (.ask (.patchProject k₁ id patch) next₁)
        (.ask (.patchProject k₂ id patch) next₂)

/-- Dialogues in a row are parallel if each of them is. -/
theorem Parallel.bind {f₁ f₂ : α → CallM β} (h : Parallel k₁ k₂ R d₁ d₂)
    (hf : ∀ a b, R a b → Parallel k₁ k₂ S (f₁ a) (f₂ b)) :
    Parallel k₁ k₂ S (d₁.bind f₁) (d₂.bind f₂) := by
  induction h with
  | done h => exact hf _ _ h
  | read _ ih => exact .read ih
  | write _ ih => exact .write ih

/-- Gives each call about a project the next answer, whatever project it is
about. No other call gets one. -/
def answerNext : (c : Call) → Stream' (Except ApiError (Response Project)) →
    c.Outcome × Stream' (Except ApiError (Response Project))
  | .getProject _ _, answers => (answers.head, answers.tail)
  | .patchProject _ _ _, answers => (answers.head, answers.tail)
  | _, answers => (.error (.transport .unwritable), answers)

/-- **Parallel dialogues with the same answers have the same log**, up to the
kind. -/
theorem Parallel.run (h : Parallel k₁ k₂ R d₁ d₂)
    (answers : Stream' (Except ApiError (Response Project))) :
    R (d₁.runWith answerNext answers).1 (d₂.runWith answerNext answers).1 ∧
      d₂.transcript answerNext answers =
        (d₁.transcript answerNext answers).map (AnsweredCall.onKind k₂) ∧
      ∀ e ∈ d₁.transcript answerNext answers,
        Call.Alike k₁ k₂ e.1 (AnsweredCall.onKind k₂ e).1 := by
  induction h generalizing answers with
  | done h => exact ⟨h, rfl, by simp [Dialogue.transcript]⟩
  | @read id next₁ next₂ _ ih =>
    obtain ⟨hresult, hlog, halike⟩ := ih answers.head answers.tail
    have hcall : Call.Alike k₁ k₂ (.getProject k₁ id) (.getProject k₂ id) :=
      ⟨⟨id, rfl, rfl⟩, rfl, rfl, rfl⟩
    exact ⟨hresult, congrArg (List.cons _) hlog, List.forall_mem_cons.2 ⟨hcall, halike⟩⟩
  | @write id patch next₁ next₂ _ ih =>
    obtain ⟨hresult, hlog, halike⟩ := ih answers.head answers.tail
    have hcall : Call.Alike k₁ k₂ (.patchProject k₁ id patch) (.patchProject k₂ id patch) :=
      ⟨⟨id, rfl, rfl⟩, rfl, rfl, rfl⟩
    exact ⟨hresult, congrArg (List.cons _) hlog, List.forall_mem_cons.2 ⟨hcall, halike⟩⟩

end CallM

open CallM (Parallel answerNext)

/-! ## One attempt -/

/-- Results that are related, or are the same failure up to the kind. -/
inductive Attempt.ResultAlike {α : Type} (k₁ k₂ : ProjectKind) (R : α → α → Prop) :
    Except ResourceError α → Except ResourceError α → Prop
  | ok {a b : α} : R a b → ResultAlike k₁ k₂ R (.ok a) (.ok b)
  | missing (id : String) :
      ResultAlike k₁ k₂ R (.error (.projectNotFound k₁ id)) (.error (.projectNotFound k₂ id))
  | error (e : ResourceError) : ResultAlike k₁ k₂ R (.error e) (.error e)

open Attempt (ResultAlike)

/-- What comes of alike results in parallel is alike. -/
theorem Attempt.ResultAlike.map {α β : Type} {R : α → α → Prop} {S : β → β → Prop}
    {r₁ r₂ : Except ResourceError α} {f₁ f₂ : α → β} (h : ResultAlike k₁ k₂ R r₁ r₂)
    (hf : ∀ a b, R a b → S (f₁ a) (f₂ b)) : ResultAlike k₁ k₂ S (r₁.map f₁) (r₂.map f₂) := by
  cases h with
  | ok h => exact .ok (hf _ _ h)
  | missing id => exact .missing id
  | error e => exact .error e

/-- A project that is not there is not there under its title. -/
theorem ResourceError.projectNotFound_alike (id : String) :
    Diagnostic.Alike k₁ k₂ (projectNotFound k₁ id).diagnostic
      (projectNotFound k₂ id).diagnostic := by
  have hdetail (k : ProjectKind) : (projectNotFound k id).diagnostic.detail =
      "" ++ k.title ++ (" project " ++ id ++ " not found") := by
    rw [String.empty_append, ← String.append_assoc, ← String.append_assoc]
    rfl
  exact ⟨rfl, rfl, .inr ⟨_, _, hdetail k₁, hdetail k₂⟩⟩

namespace ProjectKey

variable (id : String)

/-- The same answer reports the same list, or an error that is alike. -/
theorem reported_alike (action : Action) (o : Except ApiError (Response Project)) :
    ResultAlike k₁ k₂ Eq (reported ⟨k₁, id⟩ action o) (reported ⟨k₂, id⟩ action o) := by
  cases o with
  | error e => exact .error _
  | ok r =>
    simp only [reported, membershipOf]
    split
    · exact .missing id
    · cases r.payload with
      | none => exact .error _
      | some project => exact .ok rfl

/-- The warning differs only where it names the kind. -/
theorem concurrentChange_alike (m target : Membership) :
    Diagnostic.Alike k₁ k₂ (concurrentChange ⟨k₁, id⟩ m target)
      (concurrentChange ⟨k₂, id⟩ m target) := by
  unfold concurrentChange Diagnostic.warning
  refine ⟨rfl, rfl, .inr ?_⟩
  simp only [String.append_assoc]
  exact ⟨_, _, rfl, rfl⟩

/-- The same remarks are made, in the same order. -/
theorem remarks_alike (target m : Membership) :
    Forall₂ (Diagnostic.Alike k₁ k₂) (remarks ⟨k₁, id⟩ target m) (remarks ⟨k₂, id⟩ target m) := by
  unfold remarks
  split
  · exact .nil
  · exact .cons (concurrentChange_alike id m target) .nil

end ProjectKey

namespace Settling

/-- What came of settling an entry, up to the title in the warnings. -/
def TransitionAlike (k₁ k₂ : ProjectKind) (v₁ v₂ : Transition × Diagnostics) : Prop :=
  v₁.1 = v₂.1 ∧ Forall₂ (Diagnostic.Alike k₁ k₂) v₁.2 v₂.2

/-- The same list is due, or the attempt has come to the same. -/
inductive StageAlike (k₁ k₂ : ProjectKind) : Stage → Stage → Prop
  | due (target : Membership) : StageAlike k₁ k₂ (.due target) (.due target)
  | settled {r₁ r₂ : Except ResourceError (Transition × Diagnostics)} :
      ResultAlike k₁ k₂ (TransitionAlike k₁ k₂) r₁ r₂ →
      StageAlike k₁ k₂ (.settled r₁) (.settled r₂)

variable (s : Settling) (id : String) (o : Except ApiError (Response Project))

/-- After the same answer to the read, both settlings are done, or both go
on. -/
theorem afterReading_alike :
    StageAlike k₁ k₂ (s.afterReading ⟨k₁, id⟩ o) (s.afterReading ⟨k₂, id⟩ o) := by
  have hread := @ProjectKey.reported_alike k₁ k₂ id .readProject o
  unfold afterReading
  generalize ProjectKey.reported ⟨k₁, id⟩ .readProject o = r₁ at hread ⊢
  generalize ProjectKey.reported ⟨k₂, id⟩ .readProject o = r₂ at hread ⊢
  cases hread with
  | missing id => exact .settled (.missing id)
  | error e => exact .settled (.error e)
  | @ok current _ hsame =>
    subst hsame
    cases htarget : s.target? current with
    | none =>
      simp only [htarget]
      exact .settled (.ok ⟨rfl, .nil⟩)
    | some target =>
      simp only [htarget]
      exact .due target

/-- The same answer to the write ends both settlings alike. -/
theorem afterWriting_alike (target : Membership) :
    ResultAlike k₁ k₂ (TransitionAlike k₁ k₂) (s.afterWriting ⟨k₁, id⟩ target o)
      (s.afterWriting ⟨k₂, id⟩ target o) := by
  refine (ProjectKey.reported_alike id .updateProject o).map fun m _ hsame => ?_
  subst hsame
  exact ⟨rfl, ProjectKey.remarks_alike id target m⟩

/-- **An attempt goes the same way for both kinds.** -/
theorem attempt_parallel :
    Parallel k₁ k₂ (ResultAlike k₁ k₂ (TransitionAlike k₁ k₂))
      (s.attempt ⟨k₁, id⟩).calls (s.attempt ⟨k₂, id⟩).calls := by
  rw [calls_attempt, calls_attempt]
  refine .read fun o => ?_
  have hread := @afterReading_alike k₁ k₂ s id o
  generalize s.afterReading ⟨k₁, id⟩ o = stage₁ at hread ⊢
  generalize s.afterReading ⟨k₂, id⟩ o = stage₂ at hread ⊢
  cases hread with
  | due target => exact .write fun o => .done (afterWriting_alike s id o target)
  | settled h => exact .done h

end Settling

/-! ## One operation -/

namespace Association

variable (a : Association)

/-- The project of an association is that of its kind. -/
theorem project?_onKind (k : ProjectKind) : (a.onKind k).project? = some ⟨k, a.projectId⟩ := by
  cases k <;> rfl

/-- A plan is right of one kind if it is of the other. -/
theorem validate_onKind : (a.onKind k₁).validate = (a.onKind k₂).validate := by
  unfold validate
  rw [kind_eq, kind_eq, project?_onKind, project?_onKind]
  rfl

end Association

namespace AssociationResource

variable (configured : Bool) (a : Association) (before after : Option Association)

/-- Alike results of a settling are concluded alike. -/
theorem concluded_alike {r₁ r₂ : Except ResourceError (Transition × Diagnostics)}
    (h : ResultAlike k₁ k₂ (Settling.TransitionAlike k₁ k₂) r₁ r₂) :
    Outcome.Alike k₁ k₂
      (concluded (before.map (.onKind k₁)) (after.map (.onKind k₁)) r₁)
      (concluded (before.map (.onKind k₂)) (after.map (.onKind k₂)) r₂) := by
  cases h with
  | ok hv => exact ⟨⟨after, rfl, rfl⟩, hv.2⟩
  | missing id => exact ⟨⟨before, rfl, rfl⟩, .cons (ResourceError.projectNotFound_alike id) .nil⟩
  | error e => exact ⟨⟨before, rfl, rfl⟩, Diagnostics.alike_refl _⟩

/-- Alike results of a read are tracked alike. -/
theorem readBack_alike {r₁ r₂ : Except ResourceError Membership}
    (h : ResultAlike k₁ k₂ Eq r₁ r₂) :
    Outcome.Alike k₁ k₂ (readBack (a.onKind k₁) r₁) (readBack (a.onKind k₂) r₂) := by
  cases h with
  | missing id => exact ⟨⟨none, rfl, rfl⟩, .nil⟩
  | error e =>
    cases e with
    | projectNotFound kind id => exact ⟨⟨none, rfl, rfl⟩, .nil⟩
    | _ => exact ⟨⟨some a, rfl, rfl⟩, Diagnostics.alike_refl _⟩
  | @ok m _ hsame =>
    subst hsame
    by_cases hm : m.contains a.filterId = true
    · exact ⟨⟨some a, if_pos hm, if_pos hm⟩, .nil⟩
    · exact ⟨⟨none, if_neg hm, if_neg hm⟩, .nil⟩

/-- An operation that needs its project fails alike without a client. -/
theorem calls_unconfigured {β : Type} (k : ProjectKind) (f : ProjectKey → Attempt β) :
    (projectOf false (a.onKind k) >>= f).calls = .done (.error .unconfigured) := by
  rw [Attempt.calls_bind, calls_projectOf, Association.project?_onKind]
  rfl

/-- Creates of two kinds run in parallel. -/
theorem create_parallel :
    Parallel k₁ k₂ (Outcome.Alike k₁ k₂)
      (create configured (a.onKind k₁) (before.map (.onKind k₁))).calls
      (create configured (a.onKind k₂) (before.map (.onKind k₂))).calls := by
  have hvalidate := @Association.validate_onKind k₁ k₂ a
  by_cases hv : (a.onKind k₁).validate.hasError = true
  · -- the same problems are reported, and nothing is asked
    have hcreate (k : ProjectKind) (hk : (a.onKind k).validate = (a.onKind k₁).validate) :
        (create configured (a.onKind k) (before.map (.onKind k))).calls =
          .done ⟨before.map (.onKind k), (a.onKind k₁).validate⟩ := by
      simp [create, hk, hv]
    rw [hcreate k₁ rfl, hcreate k₂ hvalidate.symm]
    exact .done ⟨⟨before, rfl, rfl⟩, Diagnostics.alike_refl _⟩
  · obtain ⟨hnil₁, -⟩ := Association.valid_of_not_hasError (Bool.not_eq_true _ ▸ hv)
    have hnil₂ : (a.onKind k₂).validate = [] := hvalidate.symm.trans hnil₁
    cases configured with
    | false =>
      rw [calls_create_of_validate false hnil₁, calls_create_of_validate false hnil₂,
        attemptCreate, attemptCreate, calls_unconfigured, calls_unconfigured]
      exact .done ⟨⟨before, rfl, rfl⟩, Diagnostics.alike_refl _⟩
    | true =>
      rw [calls_create_of_project? hnil₁ (a.project?_onKind k₁),
        calls_create_of_project? hnil₂ (a.project?_onKind k₂)]
      exact (Settling.attempt_parallel _ a.projectId).bind fun _ _ h =>
        .done (concluded_alike before (some a.withId) h)

/-- Reads of two kinds run in parallel. -/
theorem read_parallel :
    Parallel k₁ k₂ (Outcome.Alike k₁ k₂)
      (read configured (before.map (.onKind k₁))).calls
      (read configured (before.map (.onKind k₂))).calls := by
  cases before with
  | none => exact .done ⟨⟨none, rfl, rfl⟩, .nil⟩
  | some a =>
    cases configured with
    | false =>
      simp only [Option.map_some, calls_read_some, attemptRead, calls_unconfigured]
      exact .done ⟨⟨some a, rfl, rfl⟩, Diagnostics.alike_refl _⟩
    | true =>
      simp only [Option.map_some, calls_read_of_project? (a.project?_onKind _)]
      exact .read fun o => .done (readBack_alike a (ProjectKey.reported_alike a.projectId _ o))

/-- Deletes of two kinds run in parallel. -/
theorem delete_parallel :
    Parallel k₁ k₂ (Outcome.Alike k₁ k₂)
      (delete configured (before.map (.onKind k₁))).calls
      (delete configured (before.map (.onKind k₂))).calls := by
  cases before with
  | none => exact .done ⟨⟨none, rfl, rfl⟩, .nil⟩
  | some a =>
    cases configured with
    | false =>
      simp only [Option.map_some, calls_delete_some, attemptDelete, calls_unconfigured]
      exact .done ⟨⟨some a, rfl, rfl⟩, Diagnostics.alike_refl _⟩
    | true =>
      simp only [Option.map_some, calls_delete_of_project? (a.project?_onKind _)]
      exact (Settling.attempt_parallel _ a.projectId).bind fun _ _ h =>
        .done (concluded_alike (some a) none h)

/-! ## A course of operations -/

/-- What is done in the course of an association's life. -/
inductive Move where
  | create (plan : Association)
  | read
  | delete
  deriving DecidableEq, Repr, Inhabited

/-- The operation, on a project of this kind. -/
def Move.operation (k : ProjectKind) : Move → Operation Association
  | .create plan => .create (plan.onKind k)
  | .read => .read
  | .delete => .delete

/-- Operations in turn, each on what the one before it left tracked, with
the outcome of each. -/
def course (configured : Bool) (k : ProjectKind) :
    List Move → Option Association → ApiM (List (Outcome Association))
  | [], _ => return []
  | move :: moves, tracked => do
    let outcome ← (associationResource configured).carryOut tracked (move.operation k)
    let later ← course configured k moves outcome.state
    return outcome :: later

/-- The calls of a course are those of its first operation, and then those of
the rest. -/
theorem calls_course_cons (k : ProjectKind) (move : Move) (moves : List Move)
    (tracked : Option Association) :
    (course configured k (move :: moves) tracked).calls =
      ((associationResource configured).carryOut tracked (move.operation k)).calls.bind
        fun outcome => (course configured k moves outcome.state).calls.bind
          fun later => .done (outcome :: later) := by
  simp only [course, Dialogue.bind_eq_bind, ApiM.calls_bind]
  rfl

/-- An operation goes the same way for both kinds. -/
theorem carryOut_parallel (move : Move) :
    Parallel k₁ k₂ (Outcome.Alike k₁ k₂)
      ((associationResource configured).carryOut (before.map (.onKind k₁))
        (move.operation k₁)).calls
      ((associationResource configured).carryOut (before.map (.onKind k₂))
        (move.operation k₂)).calls := by
  cases move with
  | create plan => exact create_parallel configured plan before
  | read => exact read_parallel configured before
  | delete => exact delete_parallel configured before

/-- Whole courses run in parallel, with outcomes that are alike one by one. -/
theorem course_parallel (moves : List Move) :
    Parallel k₁ k₂ (Forall₂ (Outcome.Alike k₁ k₂))
      (course configured k₁ moves (before.map (.onKind k₁))).calls
      (course configured k₂ moves (before.map (.onKind k₂))).calls := by
  induction moves generalizing before with
  | nil => exact .done .nil
  | cons move moves ih =>
    rw [calls_course_cons, calls_course_cons]
    refine (carryOut_parallel configured before move).bind fun o₁ o₂ h => ?_
    -- what is tracked then is alike again, so the later operations are
    obtain ⟨tracked, htracked₁, htracked₂⟩ := h.state
    rw [htracked₁, htracked₂]
    exact (ih tracked).bind fun _ _ hlater => .done (.cons h hlater)

/-- **The kinds of project share one course.** Whatever is done with an
association, and whatever is answered, it goes the same way for both
kinds: the same calls in the same order, each with the kind in its URL and
otherwise spelled out alike; after each operation the same is tracked, but
for the project type; and the same diagnostics are told, but for the title
of the kind in a detail. -/
theorem kinds_share_course (k₁ k₂ : ProjectKind) (configured : Bool) (moves : List Move)
    (tracked : Option Association) (answers : Stream' (Except ApiError (Response Project))) :
    let course₁ := (course configured k₁ moves (tracked.map (.onKind k₁))).calls
    let course₂ := (course configured k₂ moves (tracked.map (.onKind k₂))).calls
    Forall₂ (Outcome.Alike k₁ k₂) (course₁.runWith answerNext answers).1
        (course₂.runWith answerNext answers).1 ∧
      course₂.transcript answerNext answers =
        (course₁.transcript answerNext answers).map (AnsweredCall.onKind k₂) ∧
      ∀ e ∈ course₁.transcript answerNext answers,
        Call.Alike k₁ k₂ e.1 (AnsweredCall.onKind k₂ e).1 :=
  (course_parallel configured tracked moves).run answers

end AssociationResource

end TrafficGate
