import TrafficGate.Proofs.Association.Settling
import Mathlib.Logic.Function.Basic
/-!
# A server that keeps lists

Of a server only the list of each project matters here, absent or with
repetitions as it may be. A read reports the list and a write replaces it
and reports what was written (`Serves`); a call may also be refused
(`MayRefuse`), or be served and its answer lost (`MayLose`). Nothing is
said of what else a record or an answer holds.

What a settling does to such a server is read off its two calls
(`MayLose.of_reading`, `MayLose.of_writing`), and put together in
`passes_attempt`.
-/

namespace TrafficGate

namespace Membership

variable {xs : List String} {m : Membership}

/-- A list without repetitions is left as it is. -/
theorem firsts_of_nodup (h : xs.Nodup) : firsts xs = xs := by
  induction xs with
  | nil => rfl
  | cons x xs ih =>
    obtain ⟨hx, hxs⟩ := List.nodup_cons.1 h
    rw [firsts, ih hxs, List.filter_eq_self.2]
    intro y hy
    have hne : y ≠ x := fun hyx => hx (hyx ▸ hy)
    simpa using hne

/-- The ids of a membership give it back. -/
@[simp] theorem ofIds_ids (m : Membership) : ofIds m.ids = m := by
  obtain ⟨ids, hids⟩ := m
  simp [ofIds, firsts_of_nodup hids]

/-- A membership survives being sent as a list and read back. -/
@[simp] theorem map_id_toFilters (m : Membership) : m.toFilters.map FilterRef.id = m.ids := by
  simp [toFilters, Function.comp_def]

@[simp] theorem agrees_self (m : Membership) : m.agrees m = true := by
  simp [agrees, contains]

end Membership

/-! ## Lists and answers -/

/-- The list of every project. -/
abbrev Lists := ProjectKey → Option (List String)

namespace Lists

variable {l l' : Lists} {p : ProjectKey} {m target : Membership}

/-- The ids that a project lists; an absent list has none. -/
def ids (l : Lists) (p : ProjectKey) : List String := (l p).getD []

/-- The same, each once. -/
def members (l : Lists) (p : ProjectKey) : Membership := .ofIds (l.ids p)

/-- To be a member is to be on the list. -/
theorem mem_members {x : String} : x ∈ (l.members p).ids ↔ x ∈ l.ids p := Membership.mem_firsts

/-- The lists with one replaced by a membership. -/
def put (l : Lists) (p : ProjectKey) (m : Membership) : Lists := Function.update l p (some m.ids)

/-- A list that was replaced is the new one. -/
@[simp] theorem ids_update {xs : List String} : ids (Function.update l p (some xs)) p = xs := by
  simp [ids]

/-- A membership that was put in place has its ids for a list. -/
@[simp] theorem ids_put : (l.put p m).ids p = m.ids := ids_update

/-- A membership that was put in place is what the members are. -/
@[simp] theorem members_put : (l.put p m).members p = m := by simp [members]

/-- The lists of other projects are left alone. -/
theorem put_of_ne {q : ProjectKey} (h : q ≠ p) : l.put p m q = l q := by simp [put, h]

/-- The list of a project that a patch was applied to. -/
def patched (list : Option (List String)) (patch : ProjectPatch) : Option (List String) :=
  match patch.filters with
  | none => list
  | some sent => some (sent.map FilterRef.id)

/-- An answer that reports a list. -/
def Reports (list : Option (List String)) (o : Except ApiError (Response Project)) : Prop :=
  ∃ project body, o = .ok ⟨.ok, some project, body⟩ ∧
    project.filters.map (fun refs => refs.map FilterRef.id) = list

/-- Whether an answer carries what was asked for. -/
def carries {α : Type} (o : Except ApiError (Response α)) : Bool :=
  match o with
  | .ok r => r.payload.isSome
  | .error _ => false

/-- An answer with nothing in it: an error status, or no response at all. -/
def Fails {α : Type} (o : Except ApiError (Response α)) : Prop := carries o = false

/-- A call that goes well. -/
def Serves (l : Lists) : AnsweredCall → Lists → Prop
  | ⟨.getProject kind id, o⟩, l' => Reports (l ⟨kind, id⟩) o ∧ l' = l
  | ⟨.patchProject kind id patch, o⟩, l' =>
    Reports (patched (l ⟨kind, id⟩) patch) o ∧
      l' = Function.update l ⟨kind, id⟩ (patched (l ⟨kind, id⟩) patch)
  | _, l' => l' = l

/-- A call that goes well, or fails and changes nothing. -/
def MayRefuse (l : Lists) (e : AnsweredCall) (l' : Lists) : Prop :=
  Serves l e l' ∨ Fails e.2 ∧ l' = l

/-- A call that goes well, or fails before it changes anything or after. -/
def MayLose (l : Lists) (e : AnsweredCall) (l' : Lists) : Prop :=
  MayRefuse l e l' ∨ Fails e.2 ∧ ∃ o, Serves l ⟨e.1, o⟩ l'

/-! ## A server that does not fail -/

/-- The answer that reports a list, and nothing else. -/
def report (list : Option (List String)) : Except ApiError (Response Project) :=
  .ok ⟨.ok, some
    { id := "", name := "", filters := list.map fun ids => ids.map FilterRef.mk }, []⟩

/-- The answer to a call, and the lists after it. Filters are not known
here. -/
def answer : (c : Call) → Lists → c.Outcome × Lists
  | .getProject kind id, l => (report (l ⟨kind, id⟩), l)
  | .patchProject kind id patch, l =>
    (report (patched (l ⟨kind, id⟩) patch),
      Function.update l ⟨kind, id⟩ (patched (l ⟨kind, id⟩) patch))
  | .createFilter _, l => (.ok ⟨.notFound, none, []⟩, l)
  | .getFilter _, l => (.ok ⟨.notFound, none, []⟩, l)
  | .patchFilter _ _, l => (.ok ⟨.notFound, none, []⟩, l)
  | .deleteFilter _, l => (.ok ⟨.notFound, none, []⟩, l)

/-- The answer that is made up of a list reports it. -/
theorem reports_report (list : Option (List String)) : Reports list (report list) := by
  refine ⟨_, [], rfl, ?_⟩
  cases list <;> simp [Function.comp_def]

/-- **It serves every call.** -/
theorem serves_answer (c : Call) (l : Lists) : Serves l ⟨c, (answer c l).1⟩ (answer c l).2 := by
  cases c with
  | getProject kind id => exact ⟨reports_report _, rfl⟩
  | patchProject kind id patch => exact ⟨reports_report _, rfl⟩
  | createFilter creation => rfl
  | getFilter id => rfl
  | patchFilter id patch => rfl
  | deleteFilter id => rfl

/-! ## The two calls of a settling -/

/-- A membership is reported only by a response that carries a project. -/
theorem carries_of_reported {action : Action} {o : Except ApiError (Response Project)}
    (h : p.reported action o = .ok m) : carries o = true := by
  cases o with
  | error e => cases h
  | ok r =>
    cases hpayload : r.payload with
    | none =>
      -- whatever its status, such a response is an error
      simp only [ProjectKey.reported, ProjectKey.membershipOf, hpayload] at h
      split at h
      · cases h
      · cases h
    | some project => simp [carries, hpayload]

/-- A call that fails reports nothing. -/
theorem Fails.not_reported {action : Action} {o : Except ApiError (Response Project)}
    (hfails : Fails o) (h : p.reported action o = .ok m) : False := by
  rw [Fails, carries_of_reported h] at hfails
  cases hfails

/-- An answer that reports a list carries one. -/
theorem Reports.carries {list : Option (List String)} {o : Except ApiError (Response Project)}
    (h : Reports list o) : carries o = true := by
  obtain ⟨project, body, rfl, -⟩ := h
  rfl

/-- **What is reported is read as a membership.** -/
theorem reported_of_reports {action : Action} {list : Option (List String)}
    {o : Except ApiError (Response Project)} (h : Reports list o) :
    p.reported action o = .ok (.ofIds (list.getD [])) := by
  obtain ⟨project, body, rfl, rfl⟩ := h
  have hok : Status.ok ≠ .notFound := by decide
  simp only [ProjectKey.reported, ProjectKey.membershipOf, hok, if_false, Membership.ofFilters]
  cases project.filters <;> rfl

/-- A read that is served changes nothing, and reports the list. -/
theorem Serves.of_reading {o : p.reading.Outcome} (h : Serves l ⟨p.reading, o⟩ l') :
    l' = l ∧ p.reported .readProject o = .ok (l.members p) :=
  ⟨h.2, reported_of_reports h.1⟩

/-- A write that is served puts the list in place, and reports it. -/
theorem Serves.of_writing {o : (p.writing target).Outcome}
    (h : Serves l ⟨p.writing target, o⟩ l') :
    l' = l.put p target ∧ p.reported .updateProject o = .ok target := by
  have hpatched : patched (l p) ⟨some target.toFilters⟩ = some target.ids := by simp [patched]
  obtain ⟨hreports, rfl⟩ := h
  refine ⟨by rw [put, ← hpatched], ?_⟩
  rw [reported_of_reports hreports, hpatched, Option.getD_some, Membership.ofIds_ids]

/-- Whether a call wrote a list: it was to write one, and its answer says
that it did. -/
def landed : AnsweredCall → Bool
  | ⟨.patchProject _ _ _, o⟩ => carries o
  | _ => false

/-- **A call that wrote nothing changed nothing.** -/
theorem MayRefuse.of_not_landed {e : AnsweredCall} (h : MayRefuse l e l') (he : landed e = false) :
    l' = l := by
  rcases h with hserves | ⟨-, rfl⟩
  · obtain ⟨c, o⟩ := e
    cases c with
    | getProject kind id => exact hserves.2
    | patchProject kind id patch =>
      exact absurd (hserves.1.carries.symm.trans he) (by decide)
    | createFilter creation => exact hserves
    | getFilter id => exact hserves
    | patchFilter id patch => exact hserves
    | deleteFilter id => exact hserves
  · rfl

/-- **A read changes nothing, and what it reports is the membership.** -/
theorem MayLose.of_reading {o : p.reading.Outcome} (h : MayLose l ⟨p.reading, o⟩ l') :
    l' = l ∧ ∀ m, p.reported .readProject o = .ok m → m = l.members p := by
  rcases h with (hserves | ⟨hfails, rfl⟩) | ⟨hfails, o', hserves⟩
  · obtain ⟨rfl, hreported⟩ := hserves.of_reading
    refine ⟨rfl, fun m hm => ?_⟩
    rw [hreported] at hm
    exact (Except.ok.inj hm).symm
  · exact ⟨rfl, fun m hm => (hfails.not_reported hm).elim⟩
  · exact ⟨hserves.of_reading.1, fun m hm => (hfails.not_reported hm).elim⟩

/-- A read that may be refused changes nothing, and reports the list if it
reports any. -/
theorem MayRefuse.of_reading {o : p.reading.Outcome} (h : MayRefuse l ⟨p.reading, o⟩ l') :
    l' = l ∧ ∀ m, p.reported .readProject o = .ok m → m = l.members p :=
  MayLose.of_reading (.inl h)

/-- **A write lands with what was sent, or it fails.** -/
theorem MayRefuse.of_writing {o : (p.writing target).Outcome}
    (h : MayRefuse l ⟨p.writing target, o⟩ l') :
    (landed ⟨p.writing target, o⟩ = true ∧ l' = l.put p target ∧
      p.reported .updateProject o = .ok target) ∨
    (landed ⟨p.writing target, o⟩ = false ∧ l' = l ∧
      ∀ m, p.reported .updateProject o ≠ .ok m) := by
  rcases h with hserves | ⟨hfails, rfl⟩
  · obtain ⟨hput, hreported⟩ := hserves.of_writing
    exact .inl ⟨hserves.1.carries, hput, hreported⟩
  · exact .inr ⟨hfails, rfl, fun m hm => hfails.not_reported hm⟩

/-- **A write changes the list to what was sent or not at all**, and not
at all only if it reports nothing. -/
theorem MayLose.of_writing {o : (p.writing target).Outcome}
    (h : MayLose l ⟨p.writing target, o⟩ l') :
    (l' = l ∨ l' = l.put p target) ∧
      ∀ m, p.reported .updateProject o = .ok m → l' = l.put p target := by
  rcases h with (hserves | ⟨hfails, rfl⟩) | ⟨hfails, o', hserves⟩
  · exact ⟨.inr hserves.of_writing.1, fun m _ => hserves.of_writing.1⟩
  · exact ⟨.inl rfl, fun m hm => (hfails.not_reported hm).elim⟩
  · exact ⟨.inr hserves.of_writing.1, fun m _ => hserves.of_writing.1⟩

end Lists

/-! ## A whole settling -/

namespace Settling

open Dialogue (Gives Passes)

variable {p : ProjectKey} {s : Settling} {l l' : Lists}

/-- An entry is as it is wanted among the members exactly if it is so on
the list. -/
theorem reflected_members : s.Reflected (l.members p).ids ↔ s.Reflected (l.ids p) := by
  obtain ⟨_ | _, f⟩ := s
  · exact Lists.mem_members
  · exact not_congr Lists.mem_members

/-- **A settling writes its one entry or nothing**, and where it ends well
the entry is as it is wanted. -/
theorem passes_attempt {log : List AnsweredCall}
    {r : Except ResourceError (Transition × Diagnostics)}
    (hgives : Gives (s.attempt p).calls log r) (hpasses : Passes Lists.MayLose l log l') :
    (l' = l ∨ ∃ target, s.target? (l.members p) = some target ∧ l' = l.put p target) ∧
      ∀ v, r = .ok v → s.Reflected (l'.ids p) := by
  rcases gives_attempt.1 hgives with ⟨o, rfl, hstage⟩ | ⟨o, target, o', rfl, hstage, rfl⟩
  · -- the read ended it: the entry was right, or an error came
    simp only [Dialogue.passes_cons, Dialogue.passes_nil] at hpasses
    obtain ⟨_, hread, rfl⟩ := hpasses
    obtain ⟨rfl, hreported⟩ := hread.of_reading
    refine ⟨.inl rfl, ?_⟩
    rintro v rfl
    obtain ⟨-, m, hm, hreflected⟩ := afterReading_eq_ok hstage
    rw [hreported m hm] at hreflected
    exact reflected_members.1 hreflected
  · -- a write was due, and it may have landed without saying so
    simp only [Dialogue.passes_cons, Dialogue.passes_nil] at hpasses
    obtain ⟨_, hread, _, hwrite, rfl⟩ := hpasses
    obtain ⟨rfl, hreported⟩ := hread.of_reading
    obtain ⟨m, hm, htarget⟩ := afterReading_eq_due hstage
    obtain rfl := hreported m hm
    obtain ⟨hlists, hechoed⟩ := hwrite.of_writing
    constructor
    · rcases hlists with rfl | rfl
      · exact .inl rfl
      · exact .inr ⟨target, htarget, rfl⟩
    · intro v hv
      obtain ⟨m', hm', -⟩ := afterWriting_eq_ok hv
      rw [hechoed m' hm', Lists.ids_put]
      exact reflected_of_target? htarget

@[simp] theorem remarks_self (p : ProjectKey) (m : Membership) : p.remarks m m = [] := by
  simp [ProjectKey.remarks]

/-- What a settling comes to when nobody interferes and nothing fails. -/
theorem runWith_attempt (p : ProjectKey) (s : Settling) (l : Lists) :
    (s.attempt p).calls.runWith Lists.answer l =
      match s.target? (l.members p) with
      | none => (.ok (s.idle, []), l)
      | some target => (.ok (s.made, []), l.put p target) := by
  obtain ⟨hsame, hreported⟩ := (Lists.serves_answer p.reading l).of_reading
  rw [calls_attempt]
  change (s.rest p (s.afterReading p (Lists.answer p.reading l).1)).runWith Lists.answer
    (Lists.answer p.reading l).2 = _
  rw [hsame, afterReading_of_reported hreported]
  cases s.target? (l.members p) with
  | none => rfl
  | some target =>
    obtain ⟨hput, hechoed⟩ := (Lists.serves_answer (p.writing target) l).of_writing
    change (s.afterWriting p target (Lists.answer (p.writing target) l).1,
      (Lists.answer (p.writing target) l).2) = _
    rw [hput, afterWriting_of_reported hechoed, remarks_self]

/-- After a settling on a server that does not fail, the entry is as it is
wanted. -/
theorem reflected_runWith (p : ProjectKey) (s : Settling) (l : Lists) :
    s.Reflected (((s.attempt p).calls.runWith Lists.answer l).2.ids p) := by
  rw [runWith_attempt]
  cases htarget : s.target? (l.members p) with
  | none => exact reflected_members.1 (target?_eq_none_iff.1 htarget)
  | some target =>
    rw [Lists.ids_put]
    exact reflected_of_target? htarget

/-- The entries of other filters are as they were. -/
theorem reflected_runWith_of_ne {f : Settling} (h : f.filterId ≠ s.filterId) :
    f.Reflected (((s.attempt p).calls.runWith Lists.answer l).2.ids p) ↔
      f.Reflected (l.ids p) := by
  rw [runWith_attempt]
  cases htarget : s.target? (l.members p) with
  | none => rfl
  | some target =>
    rw [Lists.ids_put, ids_of_target? htarget, reflected_edit_of_ne h, reflected_members]

end Settling

end TrafficGate
