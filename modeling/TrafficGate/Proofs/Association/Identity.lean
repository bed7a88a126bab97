import TrafficGate.Proofs.Association.Lifecycle
/-!
# When two associations have one identity

An identity is a project id and a filter id with a dash between them, and
either of them may hold dashes itself. So an identity with several dashes
is that of several pairs of ids, one for each dash: of two such pairs, the
one that is cut later has in front what the other one has behind
(`identity_eq_iff`). What a create or an import has recorded is told apart
by its identity just as far.
-/

namespace TrafficGate

open Dialogue (Gives)

/-! ## Lists with a separator -/

section Separator

variable {α : Type} {c : α} {xs ys xs' ys' zs : List α}

/-- The second cut is at the place of the first one, or behind it. -/
theorem cut_later (hxs : xs' = xs ++ zs) (hys : c :: ys = zs ++ c :: ys') :
    (xs = xs' ∧ ys = ys') ∨ ∃ zs, xs' = xs ++ c :: zs ∧ ys = zs ++ c :: ys' := by
  cases zs with
  | nil => exact .inl ⟨(hxs.trans (List.append_nil xs)).symm, (List.cons.inj hys).2⟩
  | cons d zs =>
    obtain ⟨rfl, rfl⟩ := List.cons.inj hys
    exact .inr ⟨zs, hxs, rfl⟩

/-- **Two ways to cut one list at an element**: at the same place, or one
after the other. -/
theorem append_cons_eq_iff :
    xs ++ c :: ys = xs' ++ c :: ys' ↔
      (xs = xs' ∧ ys = ys') ∨ ∃ zs, (xs' = xs ++ c :: zs ∧ ys = zs ++ c :: ys') ∨
        (xs = xs' ++ c :: zs ∧ ys' = zs ++ c :: ys) := by
  constructor
  · intro h
    rcases List.append_eq_append_iff.1 h with ⟨zs, hxs, hys⟩ | ⟨zs, hxs, hys⟩
    · exact (cut_later hxs hys).imp_right fun ⟨zs, h⟩ => ⟨zs, .inl h⟩
    · refine (cut_later hxs hys).imp (fun ⟨hxs, hys⟩ => ⟨hxs.symm, hys.symm⟩) fun ⟨zs, h⟩ => ?_
      exact ⟨zs, .inr h⟩
  · rintro (⟨rfl, rfl⟩ | ⟨zs, ⟨rfl, rfl⟩ | ⟨rfl, rfl⟩⟩)
    · rfl
    · rw [List.append_assoc, List.cons_append]
    · rw [List.append_assoc, List.cons_append]

end Separator

namespace Association

variable {p f p' f' s : String} {a : Association}

/-! ## Pairs of ids -/

/-- Two pairs of ids, of a project and a filter, that an identity does not
tell apart: they are the same, or what one project id has more than the
other, behind a dash, is what the filter id of the other has more in front
of one. -/
def Confusable (p f p' f' : String) : Prop :=
  (p, f) = (p', f') ∨ ∃ s : String, (p' = p ++ "-" ++ s ∧ f = s ++ "-" ++ f') ∨
    (p = p' ++ "-" ++ s ∧ f' = s ++ "-" ++ f)

/-- An identity is written with a dash between the two ids. -/
theorem toList_identity (p f : String) : (identity p f).toList = p.toList ++ '-' :: f.toList := by
  simp [identity]

/-- **What an identity tells.** -/
theorem identity_eq_iff : identity p f = identity p' f' ↔ Confusable p f p' f' := by
  have hdashed : ∀ a b s : String, a = b ++ "-" ++ s ↔ a.toList = b.toList ++ '-' :: s.toList :=
    fun a b s => by rw [← String.toList_inj, ← toList_identity]; rfl
  rw [← String.toList_inj, toList_identity, toList_identity, append_cons_eq_iff]
  simp only [Confusable, hdashed, String.toList_inj, Prod.mk.injEq]
  refine or_congr_right ⟨?_, ?_⟩
  · rintro ⟨zs, h⟩
    exact ⟨.ofList zs, by simpa only [String.toList_ofList] using h⟩
  · rintro ⟨s, h⟩
    exact ⟨s.toList, h⟩

/-- A project id that holds another one and a dash holds a dash. -/
theorem dash_mem_of_eq (h : p' = p ++ "-" ++ s) : '-' ∈ p'.toList := by
  rw [h]
  simp

/-- Project ids without a dash leave one way to cut. -/
theorem confusable_iff_of_undashed (hp : '-' ∉ p.toList) (hp' : '-' ∉ p'.toList) :
    Confusable p f p' f' ↔ (p, f) = (p', f') := by
  refine or_iff_left ?_
  rintro ⟨s, ⟨h, -⟩ | ⟨h, -⟩⟩
  · exact hp' (dash_mem_of_eq h)
  · exact hp (dash_mem_of_eq h)

/-! ## What is recorded -/

/-- An association that a create or an import has recorded, whatever was
tracked before and whatever came of the calls. -/
inductive Recorded (a : Association) : Prop
  | create {configured : Bool} {plan : Association} {before : Option Association}
      {log : List AnsweredCall} {out : Outcome Association}
      (gives : Gives (AssociationResource.create configured plan before).calls log out)
      (done : out.diagnostics.hasError = false) (state : out.state = some a)
  | importState {key : String} {before : Option Association}
      (done : (AssociationResource.importState key before).diagnostics.hasError = false)
      (state : (AssociationResource.importState key before).state = some a)

/-- **A create that ends without an error records its plan.** -/
theorem state_of_create {configured : Bool} {plan : Association} {before : Option Association}
    {log : List AnsweredCall} {out : Outcome Association}
    (h : Gives (AssociationResource.create configured plan before).calls log out)
    (hdone : out.diagnostics.hasError = false) : out.state = some plan.withId := by
  rcases AssociationResource.calls_create configured plan before with
    ⟨ds, herror, hcalls⟩ | ⟨-, -, p, -, hcalls⟩
  · rw [hcalls] at h
    obtain ⟨-, rfl⟩ := Dialogue.gives_done.1 h
    exact absurd hdone (Bool.eq_false_iff.not_left.2 herror)
  · rw [hcalls] at h
    obtain ⟨r, -, rfl⟩ := Dialogue.gives_bind_done.1 h
    cases r with
    | ok v => rfl
    | error e => simp [AssociationResource.concluded, Outcome.orError] at hdone

/-- **An import that ends without an error records what its key names.** -/
theorem state_of_importState {key : String} {before : Option Association}
    (hdone : (AssociationResource.importState key before).diagnostics.hasError = false) :
    ∃ k, (AssociationResource.importState key before).state = some (ofKey k) := by
  unfold AssociationResource.importState at hdone ⊢
  cases hkey : ImportKey.ofString key with
  | ok k => exact ⟨k, rfl⟩
  | error fault => simp [hkey] at hdone

/-- What is recorded goes by its identity. -/
theorem Recorded.id (h : Recorded a) : a.id = some (identity a.projectId a.filterId) := by
  cases h with
  | create gives done state =>
    obtain rfl := Option.some.inj ((state_of_create gives done).symm.trans state)
    rfl
  | importState done state =>
    obtain ⟨k, hk⟩ := state_of_importState done
    obtain rfl := Option.some.inj (hk.symm.trans state)
    rfl

/-- **Exactly when two associations share an identity.** Two pairs of ids
have one identity just if they are the same or cut it at different dashes.
So as long as no project id holds a dash, an identity belongs to one pair,
whatever the filter ids hold. The same condition decides when two recorded
associations have the same id, whether a create or an import has recorded
them and whatever their project types are. -/
theorem identity_shared :
    (∀ p f p' f' : String, identity p f = identity p' f' ↔ Confusable p f p' f') ∧
    (∀ p f p' f' : String, '-' ∉ p.toList → '-' ∉ p'.toList →
      (identity p f = identity p' f' ↔ (p, f) = (p', f'))) ∧
    (∀ a b : Association, Recorded a → Recorded b →
      (a.id = b.id ↔ Confusable a.projectId a.filterId b.projectId b.filterId)) := by
  refine ⟨fun p f p' f' => identity_eq_iff, ?_, ?_⟩
  · intro p f p' f' hp hp'
    exact identity_eq_iff.trans (confusable_iff_of_undashed hp hp')
  · intro a b ha hb
    rw [ha.id, hb.id, Option.some_inj]
    exact identity_eq_iff

/-! ### One identity, recorded twice

A create finds its filter attached already. An import names another filter
of another project, of another kind. -/

namespace Dashed

def plan : Association := { projectId := "a", projectType := "security", filterId := "b-c" }

/-- The project of the plan. -/
def project : Project := { id := "a", name := "a", filters := some [⟨"b-c"⟩] }

def answered : AnsweredCall :=
  ⟨.getProject .security "a", (.ok ⟨.ok, some project, []⟩ : Except ApiError (Response Project))⟩

def imported : Association :=
  ofKey { projectId := "a-b", kind := .observability, filterId := "c" }

/-- A create records the plan. -/
theorem recorded_created : Recorded plan.withId := by
  have hgives : Gives (AssociationResource.create true plan none).calls [answered]
      ⟨some plan.withId, []⟩ := .cons .nil
  exact .create hgives rfl rfl

/-- An import records what its key names. -/
theorem recorded_imported : Recorded imported := by
  have hout : AssociationResource.importState "a-b,observability,c" none =
      ⟨some imported, []⟩ := by decide
  exact .importState (congrArg (·.diagnostics.hasError) hout) (congrArg Outcome.state hout)

end Dashed

/-- **Two associations of one identity**: where one has the dash in its
filter, the other has it in its project. -/
theorem identity_shared_dashed :
    '-' ∉ "a".toList ∧ '-' ∉ "é".toList ∧ identity "a" "b-c" ≠ identity "é" "b-c" ∧
    Confusable "a" "b-c" "a-b" "c" ∧ Dashed.plan.withId.id = Dashed.imported.id ∧
    Dashed.plan.projectType ≠ Dashed.imported.projectType := by
  have hplain : '-' ∉ "a".toList ∧ '-' ∉ "é".toList := ⟨by decide, by decide⟩
  have hconfusable : Confusable "a" "b-c" "a-b" "c" := .inr ⟨"b", .inl ⟨rfl, rfl⟩⟩
  obtain ⟨-, hundashed, hrecorded⟩ := identity_shared
  refine ⟨hplain.1, hplain.2, ?_, hconfusable, ?_, by decide⟩
  · exact (hundashed "a" "b-c" "é" "b-c" hplain.1 hplain.2).not.2 (by decide)
  · exact (hrecorded _ _ Dashed.recorded_created Dashed.recorded_imported).2 hconfusable

end Association

end TrafficGate
