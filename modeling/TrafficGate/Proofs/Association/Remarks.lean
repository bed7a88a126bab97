import TrafficGate.Proofs.Association.Lists
import TrafficGate.Proofs.Association.Requests
/-!
# What is said about a write

The answer to a write shows the list of the project as it is by then. Its
ids stand there in some order, some of them more than once, or there is no
list at all; what counts is which ids they are (`SameIds`). If they are not
those that were written, then there is one warning, with both lists
(`Remarked`), and the write has been done nevertheless.

So a create or a delete says one thing at most: an error, or the warning, or
nothing (`Told`).
-/

namespace TrafficGate

open Dialogue (Gives)

/-! ## Lists of ids -/

/-- Two lists of the same ids, in whatever order and however often they stand
there. -/
def SameIds (ids ids' : List String) : Prop := ∀ id, id ∈ ids ↔ id ∈ ids'

/-- The ids of a list as a person reads them. -/
def idsLine (ids : List String) : String := if ids = [] then "(none)" else ", ".intercalate ids

namespace Membership

variable {m n : Membership}

/-- It makes no difference whether ids are dropped before or after their
repetitions are. -/
theorem filter_firsts (keep : String → Bool) (ids : List String) :
    (firsts ids).filter keep = firsts (ids.filter keep) := by
  induction ids with
  | nil => rfl
  | cons id rest ih =>
    rw [firsts, List.filter_cons, List.filter_cons, List.filter_filter]
    by_cases hid : keep id = true
    · simp only [hid, if_true, firsts, ← ih, List.filter_filter, Bool.and_comm]
    · rw [if_neg hid, if_neg hid, ← ih]
      -- an id that is not kept is left out by `keep` alone
      refine List.filter_congr fun x _ => ?_
      by_cases hx : x = id
      · simp [hx, hid]
      · simp [hx]

/-- **Each id is kept where it stands first.** -/
theorem firsts_eq_eraseDups (ids : List String) : firsts ids = ids.eraseDups := by
  induction hn : ids.length using Nat.strongRecOn generalizing ids with
  | ind n ih =>
    cases ids with
    | nil => rfl
    | cons id rest =>
      have hfilter : (firsts rest).filter (· ≠ id) = firsts (rest.filter fun x => !x == id) := by
        rw [← filter_firsts]
        refine List.filter_congr fun x _ => ?_
        by_cases hx : x = id
        · simp [hx]
        · simp [hx]
      have hshorter : (rest.filter fun x => !x == id).length < n := by
        rw [← hn, List.length_cons]
        exact Nat.lt_succ_of_le (List.length_filter_le _ _)
      rw [firsts, hfilter, ih _ hshorter _ rfl, List.eraseDups_cons]

/-- **Memberships agree if they have the same ids.** -/
theorem agrees_iff : m.agrees n = true ↔ SameIds m.ids n.ids := by
  rw [agrees, Bool.and_eq_true, List.all_eq_true, List.all_eq_true]
  simp only [contains, List.contains_iff_mem]
  constructor
  · rintro ⟨hmn, hnm⟩ id
    exact ⟨hmn id, hnm id⟩
  · intro h
    exact ⟨fun id => (h id).1, fun id => (h id).2⟩

/-- A membership is worded as its ids are. -/
theorem wording_eq (m : Membership) : m.wording = idsLine m.ids := by
  unfold wording idsLine
  cases m.ids with
  | nil => rfl
  | cons id rest => rfl

/-- The repetitions in a list make no difference to which ids are in it. -/
theorem sameIds_ofIds {ids ids' : List String} : SameIds (ofIds ids).ids ids' ↔ SameIds ids ids' :=
  forall_congr' fun _ => iff_congr mem_firsts Iff.rfl

end Membership

/-! ## What is said -/

namespace ProjectKey

variable {p : ProjectKey} {m target : Membership} {o : Except ApiError (Response Project)}
  {project : Project}

/-- The warning that another list came back than was written. -/
def changedMeanwhile (p : ProjectKey) (reported written : List String) : Diagnostic where
  severity := .warning
  summary := "Concurrent traffic filter modification"
  detail :=
    "The " ++ p.kind.title ++ " project " ++ p.id ++ " reported traffic filters [" ++
    idsLine reported ++ "] after [" ++ idsLine written ++ "] was written. " ++
    "Another writer changed the project's traffic filters between the read and " ++
    "the write; the last write wins, so a concurrent change may have been lost."

/-- What is said if these ids came back, each at its first place, after those
were written. -/
structure Remarked (p : ProjectKey) (reported written : List String) (ds : Diagnostics) :
    Prop where
  same : SameIds reported written → ds = []
  differ : ¬ SameIds reported written → ds = [p.changedMeanwhile reported.eraseDups written]

/-- At most one thing is said. -/
theorem Remarked.length_le {reported written : List String} {ds : Diagnostics}
    (h : Remarked p reported written ds) : ds.length ≤ 1 := by
  by_cases hsame : SameIds reported written
  · rw [h.same hsame]
    exact Nat.zero_le 1
  · rw [h.differ hsame]
    exact Nat.le_refl 1

/-- What is remarked on an echo is what is to be said of its ids. -/
theorem remarked_remarks (p : ProjectKey) (target : Membership) (ids : List String) :
    Remarked p ids target.ids (p.remarks target (.ofIds ids)) where
  same := by
    intro hsame
    rw [remarks, if_pos (Membership.agrees_iff.2 (Membership.sameIds_ofIds.2 hsame))]
  differ := by
    intro hdiffer
    rw [remarks, if_neg (mt Membership.agrees_iff.1 (mt Membership.sameIds_ofIds.1 hdiffer)),
      concurrentChange, Membership.wording_eq, Membership.wording_eq]
    change [changedMeanwhile p (Membership.firsts ids) target.ids] = _
    rw [Membership.firsts_eq_eraseDups]

/-- An answer that shows a project. One that says that there is none does not,
whatever it carries. -/
def Delivers (o : Except ApiError (Response Project)) (project : Project) : Prop :=
  ∃ r : Response Project, o = .ok r ∧ r.status ≠ .notFound ∧ r.payload = some project

/-- A membership is reported by the answers that show a project. -/
theorem reported_eq_ok_iff {action : Action} :
    p.reported action o = .ok m ↔
      ∃ project, Delivers o project ∧ m = .ofIds project.filterIds := by
  constructor
  · intro h
    obtain _ | r := o
    · cases h
    have h : p.membershipOf action r = .ok m := h
    unfold membershipOf at h
    split at h
    case isTrue => cases h
    case isFalse hstatus =>
      split at h
      case h_1 => cases h
      case h_2 project hpayload =>
        exact ⟨project, ⟨r, rfl, hstatus, hpayload⟩, (Except.ok.inj h).symm⟩
  · rintro ⟨project, ⟨r, rfl, hstatus, hpayload⟩, rfl⟩
    change p.membershipOf action r = _
    rw [membershipOf, if_neg hstatus, hpayload]
    rfl

/-- A project that is delivered has its list reported. -/
theorem Delivers.reported {action : Action} (h : Delivers o project) :
    p.reported action o = .ok (.ofIds project.filterIds) :=
  reported_eq_ok_iff.2 ⟨project, h, rfl⟩

/-- Such an answer shows one project. -/
theorem Delivers.unique {project' : Project} (h : Delivers o project) (h' : Delivers o project') :
    project = project' := by
  obtain ⟨r, rfl, -, hr⟩ := h
  obtain ⟨r', heq, -, hr'⟩ := h'
  obtain rfl := Except.ok.inj heq
  exact Option.some.inj (hr.symm.trans hr')

/-- A write is sent for one project and one membership. -/
theorem writing_inj {q : ProjectKey} (h : q.writing m = p.writing target) :
    q = p ∧ m = target := by
  obtain ⟨hkind, hid, hpatch⟩ := Call.patchProject.inj h
  have hfilters : m.toFilters = target.toFilters :=
    Option.some.inj (congrArg ProjectPatch.filters hpatch)
  have hids : m.ids = target.ids := by
    rw [← Membership.map_id_toFilters m, hfilters, Membership.map_id_toFilters]
  obtain ⟨_, _⟩ := q
  obtain ⟨_, _⟩ := m
  obtain ⟨_, _⟩ := target
  obtain rfl : _ = _ := hkind
  obtain rfl : _ = _ := hid
  obtain rfl : _ = _ := hids
  exact ⟨rfl, rfl⟩

/-- **A message shows a project** if its status is that of success and its
body is read as one, and no other exchange does. -/
theorem delivers_understood {x : Exchange} :
    Delivers (Client.understood (p.writing target) x) project ↔
      ∃ body, x = .ok (.ok, body) ∧ (Project.codec p.kind).ofBytes body = .ok project := by
  constructor
  · rintro ⟨r, hr, -, hpayload⟩
    cases x with
    | error fault => cases hr
    | ok raw =>
      have hr : Client.interpret (p.writing target) raw = .ok r := hr
      rcases Client.of_interpret hr with rfl | ⟨codec, payload, hcodec, hstatus, hbody, rfl⟩
      · cases hpayload
      · obtain rfl := Option.some.inj hcodec
        obtain rfl := Option.some.inj hpayload
        obtain ⟨status, body⟩ := raw
        obtain rfl : status = .ok := hstatus
        exact ⟨body, rfl, hbody⟩
  · rintro ⟨body, rfl, hbody⟩
    have hr : Client.interpret (p.writing target) (.ok, body) = .ok ⟨.ok, some project, body⟩ :=
      Client.interpret_of_ofBytes_ok rfl rfl hbody
    have hok : Status.ok ≠ .notFound := by decide
    exact ⟨_, hr, hok, rfl⟩

/-- **A write says whether its list came back**, whatever the answer shows
as the list. -/
theorem gives_write (target : Membership) (h : Delivers o project) :
    ∃ ds, Remarked p project.filterIds target.ids ds ∧
      ∀ r, Gives (p.write target).calls [⟨p.writing target, o⟩] r ↔ r = .ok ds := by
  refine ⟨_, p.remarked_remarks target project.filterIds, fun r => ?_⟩
  have hresult : (p.reported .updateProject o).map (p.remarks target) =
      .ok (p.remarks target (.ofIds project.filterIds)) := by
    rw [h.reported, Except.map]
  rw [p.calls_write target]
  constructor
  · intro hgives
    obtain ⟨o', ho, rfl⟩ := Dialogue.gives_ask_done.1 hgives
    obtain rfl := eq_of_heq (Sigma.mk.inj (List.cons.inj ho).1).2
    exact hresult
  · rintro rfl
    exact Dialogue.gives_ask_done.2 ⟨o, rfl, hresult.symm⟩

end ProjectKey

theorem ResourceError.severity_diagnostic (e : ResourceError) :
    e.diagnostic.severity = .error := by
  have herror := e.isError_diagnostic
  rwa [Diagnostic.isError, decide_eq_true_eq] at herror

/-! ## What an operation says -/

namespace AssociationResource

open ProjectKey (Delivers Remarked)

variable {before after : Option Association} {log : List AnsweredCall} {p : ProjectKey}
  {s : Settling}

/-- A call of a log that wrote a list, with its answer. -/
def Wrote (log : List AnsweredCall) (p : ProjectKey) (target : Membership)
    (o : Except ApiError (Response Project)) : Prop :=
  (⟨p.writing target, o⟩ : AnsweredCall) ∈ log

/-- What an operation has to say of its write, if there was one: it is done
if the answer shows the project, and only then there may be a warning. -/
structure Told (before after : Option Association) (log : List AnsweredCall)
    (out : Outcome Association) : Prop where
  atMostOne : out.diagnostics.length ≤ 1
  written : ∀ p target o project, Wrote log p target o → Delivers o project →
    out.state = after ∧ Remarked p project.filterIds target.ids out.diagnostics
  failed : ∀ p target o, Wrote log p target o → (∀ project, ¬ Delivers o project) →
    out.state = before ∧ ∃ d, out.diagnostics = [d] ∧ d.severity = .error
  unwritten : (∀ p target o, ¬ Wrote log p target o) →
    ∀ d ∈ out.diagnostics, d.severity = .error

/-- An operation that wrote nothing has an error to tell, or nothing. -/
theorem told_of_unwritten {out : Outcome Association}
    (hlog : ∀ p target o, ¬ Wrote log p target o)
    (hout : out.diagnostics = [] ∨ ∃ e : ResourceError, out.diagnostics = [e.diagnostic]) :
    Told before after log out where
  atMostOne := by
    rcases hout with hnil | ⟨e, he⟩
    · rw [hnil]
      exact Nat.zero_le 1
    · rw [he]
      exact Nat.le_refl 1
  written p target o _ hwrote := (hlog p target o hwrote).elim
  failed p target o hwrote := (hlog p target o hwrote).elim
  unwritten _ := by
    rcases hout with hnil | ⟨e, he⟩
    · rw [hnil]
      exact List.forall_mem_nil _
    · rw [he]
      exact List.forall_mem_singleton.2 (ResourceError.severity_diagnostic e)

/-- Where nothing was asked, nothing was written. -/
theorem not_wrote_nil : ∀ p target o, ¬ Wrote [] p target o := fun _ _ _ => List.not_mem_nil

/-- A read is no write. -/
theorem not_wrote_reading (p : ProjectKey) (o : p.reading.Outcome) :
    ∀ q target o', ¬ Wrote [⟨p.reading, o⟩] q target o' := by
  intro q target o' hwrote
  cases List.mem_singleton.1 hwrote

/-- What was written behind a read. -/
theorem eq_of_wrote {q : ProjectKey} {m target : Membership} {o : p.reading.Outcome}
    {o' : (p.writing target).Outcome} {a : Except ApiError (Response Project)}
    (h : Wrote [⟨p.reading, o⟩, ⟨p.writing target, o'⟩] q m a) : q = p ∧ m = target ∧ a = o' := by
  rcases List.mem_cons.1 h with hread | hwrite
  · cases hread
  · obtain ⟨hcall, ha⟩ := Sigma.mk.inj (List.mem_singleton.1 hwrite)
    obtain ⟨rfl, rfl⟩ := ProjectKey.writing_inj hcall
    exact ⟨rfl, rfl, eq_of_heq ha⟩

/-- **An attempt tells of its write.** -/
theorem told_of_attempt {r : Except ResourceError (Transition × Diagnostics)}
    (h : Gives (s.attempt p).calls log r) :
    Told before after log (concluded before after r) := by
  rcases Settling.gives_attempt.1 h with ⟨o, rfl, hstage⟩ | ⟨o, target, o', rfl, -, rfl⟩
  · refine told_of_unwritten (not_wrote_reading p o) ?_
    cases r with
    | error e => exact .inr ⟨e, rfl⟩
    | ok v =>
      obtain ⟨rfl, -⟩ := Settling.afterReading_eq_ok hstage
      exact .inl rfl
  · -- the answer to the write decides
    cases hreported : p.reported .updateProject o' with
    | error e =>
      have hfails : ∀ project, ¬ Delivers o' project := fun project hproject => by
        rw [hproject.reported] at hreported
        cases hreported
      rw [Settling.afterWriting_of_error hreported]
      refine ⟨Nat.le_refl 1, ?_, ?_, ?_⟩
      · intro q m a project hwrote hproject
        obtain ⟨rfl, rfl, rfl⟩ := eq_of_wrote hwrote
        exact (hfails project hproject).elim
      · intro q m a hwrote _
        exact ⟨rfl, e.diagnostic, rfl, ResourceError.severity_diagnostic e⟩
      · intro hnone
        exact (hnone p target o' (by simp [Wrote])).elim
    | ok m =>
      obtain ⟨project, hproject, rfl⟩ := ProjectKey.reported_eq_ok_iff.1 hreported
      have hremarked := p.remarked_remarks target project.filterIds
      rw [Settling.afterWriting_of_reported hreported]
      refine ⟨hremarked.length_le, ?_, ?_, ?_⟩
      · intro q m a project' hwrote hproject'
        obtain ⟨rfl, rfl, rfl⟩ := eq_of_wrote hwrote
        obtain rfl := hproject.unique hproject'
        exact ⟨rfl, hremarked⟩
      · intro q m a hwrote hfails
        obtain ⟨rfl, rfl, rfl⟩ := eq_of_wrote hwrote
        exact (hfails project hproject).elim
      · intro hnone
        exact (hnone p target o' (by simp [Wrote])).elim

/-- **A create of a valid plan tells of its write**, if it comes to one. -/
theorem told_create {configured : Bool} {plan : Association} {out : Outcome Association}
    (hv : plan.validate = []) (h : Gives (create configured plan before).calls log out) :
    Told before (some plan.withId) log out := by
  rcases project?_or_fails configured plan with ⟨rfl, p, hp⟩ | ⟨e, he⟩
  · rw [calls_create_of_project? hv hp] at h
    obtain ⟨r, hattempt, rfl⟩ := Dialogue.gives_bind_done.1 h
    exact told_of_attempt hattempt
  · rw [calls_create_of_validate configured hv, attemptCreate, he] at h
    obtain ⟨rfl, rfl⟩ := Dialogue.gives_done.1 h
    exact told_of_unwritten not_wrote_nil (.inr ⟨e, rfl⟩)

/-- **And so does a delete.** -/
theorem told_delete {configured : Bool} {out : Outcome Association}
    (h : Gives (delete configured before).calls log out) : Told before none log out := by
  obtain _ | tracked := before
  · obtain ⟨rfl, rfl⟩ := Dialogue.gives_done.1 h
    exact told_of_unwritten not_wrote_nil (.inl rfl)
  rcases calls_delete configured tracked with ⟨e, hcalls⟩ | ⟨-, p, -, hcalls⟩
  · rw [hcalls] at h
    obtain ⟨rfl, rfl⟩ := Dialogue.gives_done.1 h
    exact told_of_unwritten not_wrote_nil (.inr ⟨e, rfl⟩)
  · rw [hcalls] at h
    obtain ⟨r, hattempt, rfl⟩ := Dialogue.gives_bind_done.1 h
    exact told_of_attempt hattempt

/-- **A warning tells of another set of ids**, and of nothing else. A write
whose answer shows the project says nothing if the ids it shows are those
that were written, and otherwise gives the one warning, with both lists. A
create of a valid plan and a delete say one thing at most: if the list was
written, what the write says, and the create is tracked and the delete is not
any more; if the write failed, an error, and nothing has changed; and without
a write there is an error or nothing. A message shows the project if its
status is 200 and its body can be read as one. -/
theorem warnings_tell_of_other_ids :
    (∀ (p : ProjectKey) (target : Membership) (o : Except ApiError (Response Project))
      (project : Project), Delivers o project →
        ∃ ds, Remarked p project.filterIds target.ids ds ∧
          ∀ r, Gives (p.write target).calls [⟨p.writing target, o⟩] r ↔ r = .ok ds) ∧
    (∀ (configured : Bool) (plan : Association) (before : Option Association)
      (log : List AnsweredCall) (out : Outcome Association), plan.validate = [] →
        Gives (create configured plan before).calls log out →
          Told before (some plan.withId) log out) ∧
    (∀ (configured : Bool) (before : Option Association) (log : List AnsweredCall)
      (out : Outcome Association), Gives (delete configured before).calls log out →
        Told before none log out) ∧
    ∀ (p : ProjectKey) (target : Membership) (x : Exchange) (project : Project),
      Delivers (Client.understood (p.writing target) x) project ↔
        ∃ body, x = .ok (.ok, body) ∧ (Project.codec p.kind).ofBytes body = .ok project := by
  refine ⟨?_, ?_, ?_, ?_⟩
  · intro p target o project h
    exact ProjectKey.gives_write target h
  · intro configured plan before log out hv h
    exact told_create hv h
  · intro configured before log out h
    exact told_delete h
  · intro p target x project
    exact ProjectKey.delivers_understood

end AssociationResource

namespace Overwritten

open AssociationResource (Told)

def key : ProjectKey := ⟨.security, "p"⟩

def plan : Association :=
  { projectId := "p", projectType := "security", filterId := "a" }

def target : Membership := ⟨["b", "a"], by decide⟩

/-- A record without a list. -/
def emptied : List UInt8 :=
  Utf8.encode "\x7b\"id\":\"p\",\"name\":\"n\",\"traffic_filters\":null\x7d"

/-- The ids that were written, in another order, and one of them twice. -/
def shuffled : List UInt8 :=
  Utf8.encode ("\x7b\"id\":\"p\",\"name\":\"n\",\"traffic_filters\":" ++
    "[\x7b\"id\":\"a\"\x7d,\x7b\"id\":\"b\"\x7d,\x7b\"id\":\"a\"\x7d]\x7d")

/-- The log of a create in which the write ends like this. -/
def log (x : Exchange) : List AnsweredCall :=
  [⟨key.reading, Lists.report (some ["b"])⟩,
    ⟨key.writing target, Client.understood (key.writing target) x⟩]

def warning : Diagnostic where
  severity := .warning
  summary := "Concurrent traffic filter modification"
  detail :=
    "The Security project p reported traffic filters [(none)] after [b, a] was written. " ++
    "Another writer changed the project's traffic filters between the read and " ++
    "the write; the last write wins, so a concurrent change may have been lost."

def failure : Diagnostic where
  severity := .error
  summary := "Failed to update project"
  detail := "The API request failed with: 409 Conflict\n"

/-- However the write is answered, the create comes to an end with this log. -/
theorem exists_create (x : Exchange) :
    ∃ out, Gives (AssociationResource.create true plan none).calls (log x) out := by
  have hproject : plan.project? = some key := rfl
  rw [AssociationResource.calls_create_of_project? rfl hproject]
  have hattempt : Gives (Settling.attempt key ⟨.present, "a"⟩).calls (log x)
      (Settling.afterWriting key ⟨.present, "a"⟩ target
        (Client.understood (key.writing target) x)) :=
    Settling.gives_attempt.2 (.inr ⟨_, target, _, rfl, rfl, rfl⟩)
  exact ⟨_, Dialogue.gives_bind_done.2 ⟨_, hattempt, rfl⟩⟩

/-- In this log the two ids were written. -/
theorem wrote (x : Exchange) :
    AssociationResource.Wrote (log x) key target (Client.understood (key.writing target) x) := by
  simp [AssociationResource.Wrote, log]

/-- A list that is gone is warned of. -/
theorem eq_warning {ds : Diagnostics} (h : key.Remarked [] target.ids ds) : ds = [warning] := by
  have hdiffer : ¬ SameIds [] target.ids := fun hsame => by simpa [target] using hsame "a"
  rw [h.differ hdiffer]
  decide +kernel

/-- The same ids in another order are not warned of. -/
theorem eq_nil {ds : Diagnostics} (h : key.Remarked ["a", "b", "a"] target.ids ds) : ds = [] := by
  refine h.same fun id => ?_
  simp only [target, List.mem_cons, List.not_mem_nil, or_false]
  exact or_left_comm.trans (or_congr_right or_self_iff)

end Overwritten

open Overwritten ProjectKey in
/-- **A list that is gone** is warned of, one in another order is not, and a
write that fails is an error. -/
theorem AssociationResource.warnings_tell_of_other_ids_overwritten :
    Gives (create true plan none).calls (log (.ok (.ok, emptied)))
        ⟨some plan.withId, [warning]⟩ ∧
      Gives (create true plan none).calls (log (.ok (.ok, shuffled))) ⟨some plan.withId, []⟩ ∧
      Told none (some plan.withId) (log (.ok ({ code := 409 }, [])))
        ⟨none, [failure]⟩ ∧
      Gives (key.write target).calls
        [⟨key.writing target, Client.understood (key.writing target) (.ok (.ok, emptied))⟩]
        (.ok [warning]) := by
  obtain ⟨hwrite, hcreate, -, hmessage⟩ := warnings_tell_of_other_ids
  have hemptied : Delivers (Client.understood (key.writing target) (.ok (.ok, emptied)))
      { id := "p", name := "n" } := (hmessage key target _ _).2 ⟨emptied, rfl, by decide +kernel⟩
  have hshuffled : Delivers (Client.understood (key.writing target) (.ok (.ok, shuffled)))
      { id := "p", name := "n", filters := some [⟨"a"⟩, ⟨"b"⟩, ⟨"a"⟩] } :=
    (hmessage key target _ _).2 ⟨shuffled, rfl, by decide +kernel⟩
  refine ⟨?_, ?_, ?_, ?_⟩
  · obtain ⟨⟨state, ds⟩, hgives⟩ := exists_create (.ok (.ok, emptied))
    have htold := hcreate true plan none _ _ rfl hgives
    obtain ⟨rfl, hremarked⟩ := htold.written key target _ _ (wrote _) hemptied
    obtain rfl := eq_warning hremarked
    exact hgives
  · obtain ⟨⟨state, ds⟩, hgives⟩ := exists_create (.ok (.ok, shuffled))
    have htold := hcreate true plan none _ _ rfl hgives
    obtain ⟨rfl, hremarked⟩ := htold.written key target _ _ (wrote _) hshuffled
    obtain rfl := eq_nil hremarked
    exact hgives
  · exact hcreate true plan none _ _ rfl (by decide +kernel)
  · obtain ⟨ds, hremarked, hgives⟩ := hwrite key target _ _ hemptied
    obtain rfl := eq_warning hremarked
    exact (hgives _).2 rfl

end TrafficGate
