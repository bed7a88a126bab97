import TrafficGate.Association.Settle
import TrafficGate.Proofs.Dialogue.Calls
import Mathlib.Data.List.Basic
/-!
# Settling an entry, call by call

Attaching a filter and detaching one are the same operation with two aims.
It reads the list of its project, and where the entry is not as it is
wanted (`target?`) it writes the list with that one entry changed. So it
makes one call or two, and between the two it holds nothing but the list
it is about to write: that is its `Stage`.

`calls_attempt` is the equation, and `after_attempt` and `gives_attempt`
are the logs it allows; everything said of an association later is said
of these.
-/

namespace TrafficGate

/-! ## What is wanted of an entry -/

/-- How an entry is wanted. -/
inductive Aim where
  | present
  | absent
  deriving DecidableEq, Repr, Inhabited

/-- An entry that is to be settled. -/
structure Settling where
  aim : Aim
  filterId : String
  deriving DecidableEq, Repr, Inhabited

namespace Settling

/-- The attempt to settle the entry of a project's list. -/
def attempt (p : ProjectKey) (s : Settling) : Attempt (Transition × Diagnostics) :=
  match s.aim with
  | .present => p.ensurePresent s.filterId
  | .absent => p.ensureAbsent s.filterId

/-- The membership to be written, unless the entry is right already. -/
def target? (s : Settling) (m : Membership) : Option Membership :=
  match s.aim with
  | .present => m.add? s.filterId
  | .absent => m.remove? s.filterId

/-- The transition of an entry that was written. -/
def made (s : Settling) : Transition :=
  match s.aim with
  | .present => .added
  | .absent => .removed

/-- The transition of an entry that was right already. -/
def idle (s : Settling) : Transition :=
  match s.aim with
  | .present => .alreadyPresent
  | .absent => .alreadyAbsent

/-- A list has the entry as it is wanted. -/
def Reflected (s : Settling) (ids : List String) : Prop :=
  match s.aim with
  | .present => s.filterId ∈ ids
  | .absent => s.filterId ∉ ids

instance (s : Settling) (ids : List String) : Decidable (s.Reflected ids) :=
  match s with
  | ⟨.present, f⟩ => inferInstanceAs (Decidable (f ∈ ids))
  | ⟨.absent, f⟩ => inferInstanceAs (Decidable (f ∉ ids))

/-- Ids with the one entry changed: a new id comes last, and the others
keep their order. -/
def edit (s : Settling) (ids : List String) : List String :=
  match s.aim with
  | .present => ids ++ [s.filterId]
  | .absent => ids.filter (· ≠ s.filterId)

variable {s : Settling} {m target : Membership}

/-- Nothing is written exactly where the entry is right. -/
theorem target?_eq_none_iff : s.target? m = none ↔ s.Reflected m.ids := by
  obtain ⟨_ | _, f⟩ := s
  · simp [target?, Reflected, Membership.add?]
  · simp [target?, Reflected, Membership.remove?]

/-- **What is written differs by the one entry.** -/
theorem ids_of_target? (h : s.target? m = some target) : target.ids = s.edit m.ids := by
  obtain ⟨_ | _, f⟩ := s
  · simp only [target?, Membership.add?, Option.dite_none_left_eq_some, Option.some.injEq] at h
    obtain ⟨-, rfl⟩ := h
    rfl
  · simp only [target?, Membership.remove?, Option.ite_none_right_eq_some, Option.some.injEq] at h
    obtain ⟨-, rfl⟩ := h
    rfl

/-- Where there is a list to be written, the entry is not yet as it is
wanted. -/
theorem not_reflected_of_target? (h : s.target? m = some target) : ¬ s.Reflected m.ids := by
  rw [← target?_eq_none_iff, h]
  simp

/-- Once changed, the entry is as it is wanted. -/
theorem reflected_edit (s : Settling) (ids : List String) : s.Reflected (s.edit ids) := by
  obtain ⟨_ | _, f⟩ := s
  · simp [Reflected, edit]
  · simp [Reflected, edit]

/-- In the list that is written, it is. -/
theorem reflected_of_target? (h : s.target? m = some target) : s.Reflected target.ids := by
  rw [ids_of_target? h]
  exact reflected_edit s m.ids

/-- And every other id is where it was. -/
theorem mem_edit_of_ne {x : String} (s : Settling) (ids : List String) (h : x ≠ s.filterId) :
    x ∈ s.edit ids ↔ x ∈ ids := by
  obtain ⟨_ | _, f⟩ := s
  · simp [edit, h]
  · simp [edit, h]

/-- The entries of other filters are not edited. -/
theorem reflected_edit_of_ne {f : Settling} (h : f.filterId ≠ s.filterId) (ids : List String) :
    f.Reflected (s.edit ids) ↔ f.Reflected ids := by
  obtain ⟨_ | _, x⟩ := f
  · exact mem_edit_of_ne s ids h
  · exact not_congr (mem_edit_of_ne s ids h)

/-- A filter that is on the list after an edit is wanted there. -/
theorem aim_of_mem_edit {ids : List String} (h : s.filterId ∈ s.edit ids) : s.aim = .present := by
  obtain ⟨_ | _, f⟩ := s
  · rfl
  · simp [edit] at h

/-- In the same order, too. -/
theorem filter_edit {keep : String → Bool} (h : keep s.filterId = false) (ids : List String) :
    (s.edit ids).filter keep = ids.filter keep := by
  obtain ⟨_ | _, f⟩ := s
  · have hf : keep f = false := h
    simp [edit, hf]
  · simp only [edit, List.filter_filter]
    refine List.filter_congr fun x _ => ?_
    by_cases hx : x = f
    · have hf : keep f = false := h
      simp [hx, hf]
    · simp [hx]

end Settling

/-! ## Its calls -/

namespace ProjectKey

variable (p : ProjectKey)

/-- The call that reads the list of a project. -/
def reading : Call := .getProject p.kind p.id

/-- The call that writes it. -/
def writing (m : Membership) : Call := .patchProject p.kind p.id ⟨some m.toFilters⟩

/-- The membership that comes of a call about the project. -/
def reported (action : Action) (o : Except ApiError (Response Project)) :
    Except ResourceError Membership :=
  match o with
  | .ok r => p.membershipOf action r
  | .error e => .error (.transport action e)

/-- What is to be said about a membership that was written. -/
def remarks (target reported : Membership) : Diagnostics :=
  if reported.agrees target then [] else [p.concurrentChange reported target]

/-- A look-up is the one call that reads the project. -/
@[simp] theorem calls_fetchMembership :
    p.fetchMembership.calls = .ask p.reading fun o => .done (p.reported .readProject o) := by
  simp only [fetchMembership, Attempt.calls_bind, Attempt.calls_call, Dialogue.ask_bind,
    Dialogue.done_bind]
  congr 1
  funext o
  cases o <;> rfl

/-- A store is the one call that writes it. -/
@[simp] theorem calls_storeMembership (m : Membership) :
    (p.storeMembership m).calls =
      .ask (p.writing m) fun o => .done (p.reported .updateProject o) := by
  simp only [storeMembership, Attempt.calls_bind, Attempt.calls_call, Dialogue.ask_bind,
    Dialogue.done_bind]
  congr 1
  funext o
  cases o <;> rfl

/-- A write is that call, and remarks on its echo. -/
@[simp] theorem calls_write (target : Membership) :
    (p.write target).calls = .ask (p.writing target) fun o =>
      .done ((p.reported .updateProject o).map (p.remarks target)) := by
  simp only [write, Attempt.calls_bind, calls_storeMembership, Dialogue.ask_bind,
    Dialogue.done_bind]
  congr 1
  funext o
  cases p.reported .updateProject o with
  | error e => rfl
  | ok m =>
    by_cases h : m.agrees target = true
    · simp [h, remarks, Except.map]
    · simp [h, remarks, Except.map]

end ProjectKey

namespace Settling

variable (p : ProjectKey) (s : Settling)

/-- Where an attempt stands between two calls. -/
inductive Stage where
  /-- The list was read, and this one is to be written. -/
  | due (target : Membership)
  /-- There is nothing left to do. -/
  | settled (result : Except ResourceError (Transition × Diagnostics))

/-- Where the attempt stands once the list was asked for. -/
def afterReading (o : Except ApiError (Response Project)) : Stage :=
  match p.reported .readProject o with
  | .error e => .settled (.error e)
  | .ok current =>
    match s.target? current with
    | some target => .due target
    | none => .settled (.ok (s.idle, []))

/-- What comes of the attempt once the list was sent. -/
def afterWriting (target : Membership) (o : Except ApiError (Response Project)) :
    Except ResourceError (Transition × Diagnostics) :=
  (p.reported .updateProject o).map fun reported => (s.made, p.remarks target reported)

/-- What is left of the attempt at a stage. -/
def rest : Stage → CallM (Except ResourceError (Transition × Diagnostics))
  | .due target => .ask (p.writing target) fun o => .done (s.afterWriting p target o)
  | .settled result => .done result

/-! ### What a stage says -/

section Stage

variable {p s} {m target : Membership} {o : Except ApiError (Response Project)}

/-- If the list is reported, it decides whether anything is to be written. -/
theorem afterReading_of_reported (h : p.reported .readProject o = .ok m) :
    s.afterReading p o = match s.target? m with
      | some target => .due target
      | none => .settled (.ok (s.idle, [])) := by
  cases htarget : s.target? m with
  | none => simp only [afterReading, h, htarget]
  | some target => simp only [afterReading, h, htarget]

/-- If the write is reported, the entry is settled, with what is remarked. -/
theorem afterWriting_of_reported (h : p.reported .updateProject o = .ok m) :
    s.afterWriting p target o = .ok (s.made, p.remarks target m) := by
  rw [afterWriting, h, Except.map]

/-- An error of the write is that of the settling. -/
theorem afterWriting_of_error {e : ResourceError} (h : p.reported .updateProject o = .error e) :
    s.afterWriting p target o = .error e := by
  rw [afterWriting, h, Except.map]

/-- A write is due for what was reported, and not otherwise. -/
theorem afterReading_eq_due (h : s.afterReading p o = .due target) :
    ∃ m, p.reported .readProject o = .ok m ∧ s.target? m = some target := by
  unfold afterReading at h
  split at h
  · cases h
  · rename_i m hm
    split at h
    · rename_i target' htarget
      obtain rfl := Stage.due.inj h
      exact ⟨m, hm, htarget⟩
    · cases h

/-- An attempt that ends well with its read found the entry as wanted. -/
theorem afterReading_eq_ok {v : Transition × Diagnostics}
    (h : s.afterReading p o = .settled (.ok v)) :
    v = (s.idle, []) ∧ ∃ m, p.reported .readProject o = .ok m ∧ s.Reflected m.ids := by
  unfold afterReading at h
  split at h
  · simp at h
  · rename_i m hm
    split at h
    · cases h
    · rename_i htarget
      obtain rfl := Except.ok.inj (Stage.settled.inj h)
      exact ⟨rfl, m, hm, target?_eq_none_iff.1 htarget⟩

/-- A settling that ends well after its write had it reported. -/
theorem afterWriting_eq_ok {v : Transition × Diagnostics}
    (h : s.afterWriting p target o = .ok v) :
    ∃ m, p.reported .updateProject o = .ok m ∧ v = (s.made, p.remarks target m) := by
  unfold afterWriting at h
  cases hm : p.reported .updateProject o with
  | error e => simp [hm, Except.map] at h
  | ok m =>
    rw [hm] at h
    exact ⟨m, rfl, (Except.ok.inj h).symm⟩

end Stage

/-! ### The course of an attempt -/

/-- The two aims share one course. -/
theorem attempt_eq :
    s.attempt p = (do
      let current ← p.fetchMembership
      match s.target? current with
      | some target =>
        let warnings ← p.write target
        return (s.made, warnings)
      | none =>
        Attempt.count (p.counted .membershipNoop)
        return (s.idle, [])) := by
  obtain ⟨_ | _, f⟩ := s <;> rfl

/-- **An attempt reads, and then writes if it has to.** -/
theorem calls_attempt :
    (s.attempt p).calls = .ask p.reading fun o => s.rest p (s.afterReading p o) := by
  simp only [attempt_eq, Attempt.calls_bind, ProjectKey.calls_fetchMembership, Dialogue.ask_bind,
    Dialogue.done_bind]
  congr 1
  funext o
  unfold afterReading
  cases p.reported .readProject o with
  | error e => rfl
  | ok current =>
    cases h : s.target? current with
    | none => simp [h, rest]
    | some target =>
      simp only [Attempt.goOn_ok, h, Attempt.calls_bind, ProjectKey.calls_write, rest,
        Dialogue.ask_bind, Dialogue.done_bind]
      congr 1
      funext o'
      unfold afterWriting
      cases p.reported .updateProject o' <;> rfl

variable {p s}

open Dialogue (After Gives)

/-- **The logs of an attempt**: nothing yet, a read, or a read and the
write that it made due. -/
theorem after_attempt {log : List AnsweredCall}
    {left : CallM (Except ResourceError (Transition × Diagnostics))} :
    After (s.attempt p).calls log left ↔
      (log = [] ∧ left = (s.attempt p).calls) ∨
      (∃ o, log = [⟨p.reading, o⟩] ∧ left = s.rest p (s.afterReading p o)) ∨
      (∃ o target o', log = [⟨p.reading, o⟩, ⟨p.writing target, o'⟩] ∧
        s.afterReading p o = .due target ∧ left = .done (s.afterWriting p target o')) := by
  constructor
  · intro h
    obtain _ | ⟨e, log⟩ := log
    · exact .inl ⟨rfl, Dialogue.after_nil.1 h⟩
    rw [calls_attempt, Dialogue.after_ask_cons] at h
    obtain ⟨o, rfl, h⟩ := h
    obtain _ | ⟨e, log⟩ := log
    · exact .inr (.inl ⟨o, rfl, Dialogue.after_nil.1 h⟩)
    refine .inr (.inr ?_)
    cases hstage : s.afterReading p o with
    | settled r => simp [hstage, rest] at h
    | due target =>
      rw [hstage, rest, Dialogue.after_ask_cons] at h
      obtain ⟨o', rfl, h⟩ := h
      obtain ⟨rfl, rfl⟩ := Dialogue.after_done.1 h
      exact ⟨o, target, o', rfl, hstage, rfl⟩
  · rintro (⟨rfl, rfl⟩ | ⟨o, rfl, rfl⟩ | ⟨o, target, o', rfl, hstage, rfl⟩)
    · exact .nil
    · rw [calls_attempt]
      exact .cons .nil
    · rw [calls_attempt]
      refine .cons ?_
      rw [hstage]
      exact .cons .nil

/-- The logs that end an attempt. -/
theorem gives_attempt {log : List AnsweredCall}
    {r : Except ResourceError (Transition × Diagnostics)} :
    Gives (s.attempt p).calls log r ↔
      (∃ o, log = [⟨p.reading, o⟩] ∧ s.afterReading p o = .settled r) ∨
      (∃ o target o', log = [⟨p.reading, o⟩, ⟨p.writing target, o'⟩] ∧
        s.afterReading p o = .due target ∧ r = s.afterWriting p target o') := by
  rw [Gives, after_attempt]
  constructor
  · rintro (⟨-, h⟩ | ⟨o, rfl, h⟩ | ⟨o, target, o', rfl, hstage, h⟩)
    · -- an attempt that asked for nothing has its read before it
      simp [calls_attempt] at h
    · refine .inl ⟨o, rfl, ?_⟩
      cases hstage : s.afterReading p o with
      | settled r' =>
        rw [hstage, rest, Dialogue.done.injEq] at h
        rw [h]
      | due target => simp [hstage, rest] at h
    · rw [Dialogue.done.injEq] at h
      exact .inr ⟨o, target, o', rfl, hstage, h⟩
  · rintro (⟨o, rfl, hstage⟩ | ⟨o, target, o', rfl, hstage, rfl⟩)
    · exact .inr (.inl ⟨o, rfl, by rw [hstage, rest]⟩)
    · exact .inr (.inr ⟨o, target, o', rfl, hstage, rfl⟩)

/-- **One more call of an attempt** is its read, or the write that its read
made due. -/
theorem after_attempt_concat {log : List AnsweredCall} {e : AnsweredCall}
    {left : CallM (Except ResourceError (Transition × Diagnostics))} :
    After (s.attempt p).calls (log ++ [e]) left ↔
      (log = [] ∧ ∃ o, e = ⟨p.reading, o⟩ ∧ left = s.rest p (s.afterReading p o)) ∨
      (∃ o target o', log = [⟨p.reading, o⟩] ∧ e = ⟨p.writing target, o'⟩ ∧
        s.afterReading p o = .due target ∧ left = .done (s.afterWriting p target o')) := by
  rw [after_attempt]
  obtain _ | ⟨e₁, _ | ⟨e₂, log⟩⟩ := log
  · simp
  · simp only [List.cons_append, List.nil_append, reduceCtorEq, false_and, List.cons.injEq,
      and_true, and_false, exists_false, false_or]
    constructor
    · rintro ⟨o, target, o', ⟨rfl, rfl⟩, hstage, rfl⟩
      exact ⟨o, target, o', rfl, rfl, hstage, rfl⟩
    · rintro ⟨o, target, o', rfl, rfl, hstage, rfl⟩
      exact ⟨o, target, o', ⟨rfl, rfl⟩, hstage, rfl⟩
  · simp

end Settling

end TrafficGate
