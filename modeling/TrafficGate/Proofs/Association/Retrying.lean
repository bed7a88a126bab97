import TrafficGate.Proofs.Association.Lifecycle
import TrafficGate.Proofs.Association.Lists
import Mathlib.Data.List.Induction
/-!
# An operation that is tried again

A create or a delete whose write fails does not tell whether the list was
changed. So whoever tries it again starts from the list that the first
attempt read, or from the one that it was about to write. The two meet:
settling an entry that is settled writes nothing (`Lists.settle_settle`),
so however often an operation fails, the first trial without a fault
leaves what a single one would have left, and trials after it only read.
-/

namespace TrafficGate

open Dialogue (Gives Passes)

/-! ## The list that an entry is settled in -/

namespace Lists

variable {l : Lists} {p : ProjectKey} {s : Settling}

/-- The lists once an entry of a project is settled. Nothing is written if
it was right already. -/
def settle (l : Lists) (p : ProjectKey) (s : Settling) : Lists :=
  match s.target? (l.members p) with
  | some target => l.put p target
  | none => l

/-- If there is a list to be written, it is put in place. -/
theorem settle_of_target? {target : Membership} (h : s.target? (l.members p) = some target) :
    l.settle p s = l.put p target := by
  rw [settle, h]

/-- If the entry is as it is wanted, everything is left alone. -/
theorem settle_of_reflected (h : s.Reflected (l.ids p)) : l.settle p s = l := by
  rw [settle, Settling.target?_eq_none_iff.2 (Settling.reflected_members.2 h)]

/-- A list in which an entry was settled has it as it is wanted. -/
theorem reflected_settle (l : Lists) (p : ProjectKey) (s : Settling) :
    s.Reflected ((l.settle p s).ids p) := by
  cases htarget : s.target? (l.members p) with
  | none =>
    have hreflected := Settling.reflected_members.1 (Settling.target?_eq_none_iff.1 htarget)
    rwa [settle_of_reflected hreflected]
  | some target =>
    rw [settle_of_target? htarget, ids_put]
    exact Settling.reflected_of_target? htarget

/-- **To settle an entry twice is to settle it once.** -/
theorem settle_settle (l : Lists) (p : ProjectKey) (s : Settling) :
    (l.settle p s).settle p s = l.settle p s :=
  settle_of_reflected (reflected_settle l p s)

/-- The list of the project, and no other, with the one entry changed and
nothing repeated, unless the entry was right. -/
theorem settle_eq (l : Lists) (p : ProjectKey) (s : Settling) :
    l.settle p s = Function.update l p
      (if s.Reflected (l.ids p) then l p else some (s.edit (Membership.firsts (l.ids p)))) := by
  split
  · rename_i h
    rw [settle_of_reflected h, Function.update_eq_self]
  · rename_i h
    cases htarget : s.target? (l.members p) with
    | none =>
      exact absurd (Settling.reflected_members.1 (Settling.target?_eq_none_iff.1 htarget)) h
    | some target =>
      rw [settle_of_target? htarget, put, Settling.ids_of_target? htarget]
      rfl

end Lists

namespace Settling

variable {p : ProjectKey} {s : Settling} {l l' : Lists} {log : List AnsweredCall}
  {r : Except ResourceError (Transition × Diagnostics)}

/-- An attempt leaves the lists as they were or settled, and settled where
it ends well. -/
theorem lists_of_attempt (hgives : Gives (s.attempt p).calls log r)
    (hpasses : Passes Lists.MayLose l log l') :
    (l' = l ∨ l' = l.settle p s) ∧ ∀ v, r = .ok v → l' = l.settle p s := by
  obtain ⟨hlists, hok⟩ := passes_attempt hgives hpasses
  rcases hlists with rfl | ⟨target, htarget, rfl⟩
  · exact ⟨.inl rfl, fun v hv => (Lists.settle_of_reflected (hok v hv)).symm⟩
  · rw [Lists.settle_of_target? htarget]
    exact ⟨.inr rfl, fun _ _ => rfl⟩

/-- **Without a fault an attempt ends well and has nothing to say.** -/
theorem ok_of_serves (hgives : Gives (s.attempt p).calls log r)
    (hpasses : Passes Lists.Serves l log l') : ∃ t, r = .ok (t, []) := by
  rcases gives_attempt.1 hgives with ⟨o, rfl, hstage⟩ | ⟨o, target, o', rfl, hstage, rfl⟩
  · simp only [Dialogue.passes_cons, Dialogue.passes_nil] at hpasses
    obtain ⟨_, hread, rfl⟩ := hpasses
    rw [afterReading_of_reported hread.of_reading.2] at hstage
    -- a write would be due, or the entry is as it is wanted
    cases htarget : s.target? (l.members p) with
    | some target => simp [htarget] at hstage
    | none =>
      rw [htarget] at hstage
      exact ⟨s.idle, (Stage.settled.inj hstage).symm⟩
  · simp only [Dialogue.passes_cons, Dialogue.passes_nil] at hpasses
    obtain ⟨_, -, _, hwrite, rfl⟩ := hpasses
    rw [afterWriting_of_reported hwrite.of_writing.2, remarks_self]
    exact ⟨s.made, rfl⟩

/-- An attempt on an entry that is settled only reads. -/
theorem log_of_reflected (hgives : Gives (s.attempt p).calls log r)
    (hpasses : Passes Lists.MayLose l log l') (h : s.Reflected (l.ids p)) :
    ∃ o, log = [⟨p.reading, o⟩] := by
  rcases gives_attempt.1 hgives with ⟨o, rfl, -⟩ | ⟨o, target, o', rfl, hstage, -⟩
  · exact ⟨o, rfl⟩
  · simp only [Dialogue.passes_cons, Dialogue.passes_nil] at hpasses
    obtain ⟨_, hread, -⟩ := hpasses
    obtain ⟨m, hm, htarget⟩ := afterReading_eq_due hstage
    obtain rfl := hread.of_reading.2 m hm
    exact absurd (reflected_members.2 h) (not_reflected_of_target? htarget)

end Settling

/-! ## Trials -/

/-- What an operation is tried on: the lists of a server, and what is
tracked of the association. -/
structure Scene where
  lists : Lists
  tracked : Option Association

/-- An operation tried once: its calls, each with its answer, and what
came of it. -/
structure Trial where
  log : List AnsweredCall
  outcome : Outcome Association

namespace Trial

/-- The trial takes place: its calls are those of the operation, the server
answers them, and what comes of it is tracked. -/
def Runs (answers : Lists → AnsweredCall → Lists → Prop) (op : Operation Association)
    (w : Scene) (t : Trial) (w' : Scene) : Prop :=
  Gives ((associationResource true).carryOut w.tracked op).calls t.log t.outcome ∧
  Passes answers w.lists t.log w'.lists ∧ w'.tracked = t.outcome.state

/-- **An operation comes to its goal, however often it fails.** Its calls
may fail before they take effect or after; a trial in which none fails
reports nothing and leaves the goal. Trials on the list of the goal read
the one project and write nothing. -/
structure Converges (op : Operation Association) (p : ProjectKey) (start goal : Scene) : Prop where
  /-- A single trial without a fault leaves the goal. -/
  once : ∃ t, Runs Lists.Serves op start t goal
  /-- So does one after any number of trials. -/
  again : ∀ {earlier : List Trial} {w w' : Scene} {t : Trial},
    Passes (Runs Lists.MayLose op) start earlier w → Runs Lists.Serves op w t w' →
      t.outcome = ⟨goal.tracked, []⟩ ∧ w' = goal
  /-- Further trials change nothing, whether or not the first is tracked. -/
  further : ∀ {later : List Trial} {w w' : Scene}, w.lists = goal.lists →
    w.tracked = start.tracked ∨ w.tracked = goal.tracked →
    Passes (Runs Lists.MayLose op) w later w' →
      w'.lists = goal.lists ∧ (w.tracked = goal.tracked → w'.tracked = goal.tracked) ∧
      ∀ t ∈ later, ∀ e ∈ t.log, ∃ o, e = ⟨p.reading, o⟩

/-! ### What a trial does -/

section Trials

variable {op : Operation Association} {p : ProjectKey} {s : Settling} {start w w' : Scene}
  {goal : Option Association} {t : Trial} {ts : List Trial}

/-- From this tracked model the operation is to settle the entry, and the
goal is tracked afterwards. -/
def Settles (op : Operation Association) (p : ProjectKey) (s : Settling)
    (goal tracked : Option Association) : Prop :=
  ((associationResource true).carryOut tracked op).calls =
    (s.attempt p).calls.bind fun r => .done (AssociationResource.concluded tracked goal r)

/-- From this one it has nothing to do. -/
def Idles (op : Operation Association) (tracked : Option Association) : Prop :=
  ((associationResource true).carryOut tracked op).calls = .done ⟨tracked, []⟩

/-- The entry is settled, and the tracked model is that of the start or
that of the goal. -/
structure Settled (p : ProjectKey) (s : Settling) (start : Scene) (goal : Option Association)
    (w : Scene) : Prop where
  lists : w.lists = start.lists.settle p s
  tracked : w.tracked = start.tracked ∨ w.tracked = goal

/-- Where an entry is settled, it is as it is wanted. -/
theorem Settled.reflected (h : Settled p s start goal w) : s.Reflected (w.lists.ids p) := by
  rw [h.lists]
  exact Lists.reflected_settle _ _ _

/-- To settle it once more comes to the same lists. -/
theorem Settled.settle_lists (h : Settled p s start goal w) :
    w.lists.settle p s = start.lists.settle p s := by
  rw [h.lists, Lists.settle_settle]

/-- A trial that is to settle the entry leaves everything as it was, or the
entry settled. -/
theorem Runs.of_settles (hop : Settles op p s goal w.tracked)
    (h : Runs Lists.MayLose op w t w') :
    (w'.lists = w.lists ∨ w'.lists = w.lists.settle p s) ∧
      (w'.tracked = w.tracked ∨ w'.tracked = goal ∧ w'.lists = w.lists.settle p s) := by
  obtain ⟨hgives, hpasses, htracked⟩ := h
  rw [hop] at hgives
  obtain ⟨r, hattempt, hout⟩ := Dialogue.gives_bind_done.1 hgives
  obtain ⟨hlists, hok⟩ := Settling.lists_of_attempt hattempt hpasses
  refine ⟨hlists, ?_⟩
  rw [htracked, hout]
  cases r with
  | error e => exact .inl rfl
  | ok v => exact .inr ⟨rfl, hok v rfl⟩

/-- **A trial without a fault settles the entry**, says nothing, and the
goal is tracked. -/
theorem Runs.of_serves (hop : Settles op p s goal w.tracked) (h : Runs Lists.Serves op w t w') :
    t.outcome = ⟨goal, []⟩ ∧ w' = ⟨w.lists.settle p s, goal⟩ := by
  obtain ⟨hgives, hpasses, htracked⟩ := h
  rw [hop] at hgives
  obtain ⟨r, hattempt, hout⟩ := Dialogue.gives_bind_done.1 hgives
  obtain ⟨transition, rfl⟩ := Settling.ok_of_serves hattempt hpasses
  have hmayLose : Passes Lists.MayLose w.lists t.log w'.lists :=
    hpasses.mono fun _ _ _ hserves => .inl (.inl hserves)
  have hlists := (Settling.lists_of_attempt hattempt hmayLose).2 _ rfl
  have houtcome : t.outcome = ⟨goal, []⟩ := hout
  refine ⟨houtcome, ?_⟩
  rw [houtcome] at htracked
  cases w'
  simp_all

/-- A trial of an operation that has nothing to do makes no call. -/
theorem Runs.of_idles {answers : Lists → AnsweredCall → Lists → Prop}
    (hop : Idles op w.tracked) (h : Runs answers op w t w') :
    t.log = [] ∧ t.outcome = ⟨w.tracked, []⟩ ∧ w' = w := by
  obtain ⟨hgives, hpasses, htracked⟩ := h
  rw [hop] at hgives
  obtain ⟨hlog, hout⟩ := Dialogue.gives_done.1 hgives
  rw [hlog] at hpasses
  have hlists := Dialogue.passes_nil.1 hpasses
  refine ⟨hlog, hout, ?_⟩
  rw [hout] at htracked
  cases w'
  simp_all

/-! ### Trials in a row -/

section Run

variable (hstart : Settles op p s goal start.tracked)
  (hgoal : Settles op p s goal goal ∨ Idles op goal)

include hstart hgoal in
/-- **Once the entry is settled it stays so**, and trials only read. -/
theorem Settled.step (hw : Settled p s start goal w) (h : Runs Lists.MayLose op w t w') :
    Settled p s start goal w' ∧ (w.tracked = goal → w'.tracked = goal) ∧
      ∀ e ∈ t.log, ∃ o, e = ⟨p.reading, o⟩ := by
  -- what is tracked decides whether there is anything left to do
  have hop : Settles op p s goal w.tracked ∨ w.tracked = goal ∧ Idles op w.tracked := by
    rcases hw.tracked with htracked | htracked
    · exact .inl (htracked ▸ hstart)
    · rcases hgoal with hsettles | hidles
      · exact .inl (htracked ▸ hsettles)
      · exact .inr ⟨htracked, htracked ▸ hidles⟩
  rcases hop with hsettles | ⟨-, hidles⟩
  · obtain ⟨hlists, htracked⟩ := h.of_settles hsettles
    have hlists' : w'.lists = start.lists.settle p s := by
      rw [hw.settle_lists, ← hw.lists] at hlists
      rw [← hw.lists]
      exact hlists.elim id id
    refine ⟨⟨hlists', ?_⟩, ?_, ?_⟩
    · rcases htracked with hsame | ⟨hgoal', -⟩
      · rw [hsame]
        exact hw.tracked
      · exact .inr hgoal'
    · intro hwgoal
      rcases htracked with hsame | ⟨hgoal', -⟩
      · rw [hsame, hwgoal]
      · exact hgoal'
    · obtain ⟨hgives, hpasses, -⟩ := h
      rw [hsettles] at hgives
      obtain ⟨r, hattempt, -⟩ := Dialogue.gives_bind_done.1 hgives
      obtain ⟨o, hlog⟩ := Settling.log_of_reflected hattempt hpasses hw.reflected
      intro e he
      rw [hlog, List.mem_singleton] at he
      exact ⟨o, he⟩
  · obtain ⟨hlog, -, rfl⟩ := h.of_idles hidles
    exact ⟨hw, id, by simp [hlog]⟩

include hstart in
/-- The first trial either changes nothing or settles the entry. -/
theorem Settled.of_start (h : Runs Lists.MayLose op start t w') :
    w' = start ∨ Settled p s start goal w' := by
  obtain ⟨hlists, htracked⟩ := h.of_settles hstart
  rcases hlists with hsame | hsettled
  · rcases htracked with hsame' | ⟨hgoal, hsettled⟩
    · left
      cases w'
      simp_all
    · exact .inr ⟨hsettled, .inr hgoal⟩
  · refine .inr ⟨hsettled, ?_⟩
    exact htracked.imp id And.left

include hstart hgoal in
/-- **So the entry is settled after any number of trials, or nothing has
changed.** -/
theorem start_or_settled (h : Passes (Runs Lists.MayLose op) start ts w) :
    w = start ∨ Settled p s start goal w := by
  induction ts using List.reverseRecOn generalizing w with
  | nil => exact .inl (Dialogue.passes_nil.1 h)
  | append_singleton ts t ih =>
    obtain ⟨mid, hearlier, hlast⟩ := Dialogue.passes_append.1 h
    obtain ⟨_, hstep, hend⟩ := Dialogue.passes_cons.1 hlast
    obtain rfl := Dialogue.passes_nil.1 hend
    rcases ih hearlier with rfl | hsettled
    · exact Settled.of_start hstart hstep
    · exact .inr (hsettled.step hstart hgoal hstep).1

include hstart hgoal in
/-- **Whatever is tried once the entry is settled, it stays so**, and only
reads are sent. -/
theorem Settled.run (hw : Settled p s start goal w)
    (h : Passes (Runs Lists.MayLose op) w ts w') :
    Settled p s start goal w' ∧ (w.tracked = goal → w'.tracked = goal) ∧
      ∀ t ∈ ts, ∀ e ∈ t.log, ∃ o, e = ⟨p.reading, o⟩ := by
  induction ts generalizing w with
  | nil =>
    obtain rfl := Dialogue.passes_nil.1 h
    exact ⟨hw, id, by simp⟩
  | cons t ts ih =>
    obtain ⟨mid, hstep, hrest⟩ := Dialogue.passes_cons.1 h
    obtain ⟨hmid, hgoal₁, hlog⟩ := hw.step hstart hgoal hstep
    obtain ⟨hend, hgoal₂, hlogs⟩ := ih hmid hrest
    refine ⟨hend, fun hwgoal => hgoal₂ (hgoal₁ hwgoal), ?_⟩
    rw [List.forall_mem_cons]
    exact ⟨hlog, hlogs⟩

include hstart hgoal in
/-- An operation that settles an entry comes to the lists with the entry
settled. -/
theorem converges : Converges op p start ⟨start.lists.settle p s, goal⟩ where
  once := by
    obtain ⟨log, hgives, hpasses⟩ := Dialogue.gives_runWith
      (fun c l => Lists.serves_answer c l)
      ((associationResource true).carryOut start.tracked op).calls start.lists
    have hruns : Runs Lists.Serves op start ⟨log, _⟩ ⟨_, _⟩ := ⟨hgives, hpasses, rfl⟩
    have hend := (hruns.of_serves hstart).2
    exact ⟨_, hend ▸ hruns⟩
  again := by
    intro earlier w w' t hearlier ht
    rcases start_or_settled hstart hgoal hearlier with rfl | hsettled
    · exact ht.of_serves hstart
    -- the entry is settled, so a trial without a fault has no more than that to do
    rw [← hsettled.settle_lists]
    rcases hsettled.tracked with htracked | htracked
    · exact ht.of_serves (htracked ▸ hstart)
    rcases hgoal with hsettles | hidles
    · exact ht.of_serves (htracked ▸ hsettles)
    · obtain ⟨-, hout, rfl⟩ := ht.of_idles (htracked ▸ hidles)
      rw [hsettled.settle_lists, ← hsettled.lists, ← htracked]
      exact ⟨hout, rfl⟩
  further := by
    intro later w w' hlists htracked h
    have hw : Settled p s start goal w := ⟨hlists, htracked⟩
    obtain ⟨hend, hsame, hlogs⟩ := hw.run hstart hgoal h
    exact ⟨hend.lists, hsame, hlogs⟩

end Run

end Trials

/-! ## Creates and deletes -/

/-- A create settles its entry, and then tracks the plan with its id. -/
theorem settles_create {plan : Association} {p : ProjectKey} (hv : plan.validate = [])
    (hp : plan.project? = some p) (tracked : Option Association) :
    Settles (.create plan) p ⟨.present, plan.filterId⟩ (some plan.withId) tracked :=
  AssociationResource.calls_create_of_project? hv hp tracked

/-- A delete settles its entry, and then tracks nothing. -/
theorem settles_delete {tracked : Association} {p : ProjectKey}
    (hp : tracked.project? = some p) :
    Settles .delete p ⟨.absent, tracked.filterId⟩ none (some tracked) :=
  AssociationResource.calls_delete_of_project? hp

/-- A delete of nothing has nothing to do. -/
theorem idles_delete : Idles .delete none := rfl

/-- **A create and a delete can be tried again after any failure**, from
any list and however many calls have failed, before they took effect or
after. The first trial without a fault reports nothing, and it leaves what
one create or one delete would have left of the first list: the list as it
is where the entry was right, and otherwise the ids of the list without
repetition and with the one id at the end, or without it. -/
theorem retried_until_settled (l : Lists) :
    (∀ (plan : Association) (before : Option Association), plan.validate = [] →
      ∃ p, plan.project? = some p ∧
        Converges (.create plan) p ⟨l, before⟩
          ⟨Function.update l p (if plan.filterId ∈ l.ids p then l p
              else some (Membership.firsts (l.ids p) ++ [plan.filterId])),
            some { plan with id := some (plan.projectId ++ "-" ++ plan.filterId) }⟩) ∧
    (∀ (tracked : Association) (p : ProjectKey), tracked.project? = some p →
      Converges .delete p ⟨l, some tracked⟩
        ⟨Function.update l p (if tracked.filterId ∉ l.ids p then l p
            else some ((Membership.firsts (l.ids p)).filter (· ≠ tracked.filterId))),
          none⟩) := by
  constructor
  · intro plan before hv
    obtain ⟨-, p, hp⟩ := Association.valid_of_not_hasError (a := plan) (by simp [hv])
    have hsettles := settles_create hv hp
    have hlists := l.settle_eq p ⟨.present, plan.filterId⟩
    refine ⟨p, hp, ?_⟩
    exact hlists ▸ converges (hsettles before) (.inl (hsettles (some plan.withId)))
  · intro tracked p hp
    have hlists := l.settle_eq p ⟨.absent, tracked.filterId⟩
    exact hlists ▸ converges (settles_delete hp) (.inr idles_delete)

/-! ### A create that fails three times

The project cannot be read at first, then it cannot be written, then it is
written and nobody is told. -/

namespace Unlucky

def project : ProjectKey := ⟨.elasticsearch, "p"⟩

def plan : Association :=
  { projectId := "p", projectType := "elasticsearch", filterId := "a" }

/-- The association of the id that the list holds twice. -/
def other : Association := { plan with filterId := "c" }

/-- The list before the first trial holds one id twice. -/
def lists : Lists := fun _ => some ["c", "c"]

def target : Membership := ⟨["c", "a"], by decide⟩

def fault : ApiError := .transport (.unanswered "")

/-- A trial that ends with the fault. -/
def failed (action : Action) : Outcome Association :=
  ⟨none, [(ResourceError.transport action fault).diagnostic]⟩

/-- The project was not read. -/
def unread : Trial := ⟨[⟨project.reading, .error fault⟩], failed .readProject⟩

/-- The list was read, and the answer to the write is an error. -/
def unwritten : Trial :=
  ⟨[⟨project.reading, Lists.report (lists project)⟩, ⟨project.writing target, .error fault⟩],
    failed .updateProject⟩

/-- The list is read, and the entry is on it. -/
def good : Trial :=
  ⟨[⟨project.reading, Lists.report (some ["c", "a"])⟩], ⟨some plan.withId, []⟩⟩

/-- The same is seen of a write that was lost on its way there and of one
whose answer was lost on its way back. -/
theorem earlier_runs :
    Passes (Runs Lists.MayLose (.create plan)) ⟨lists, none⟩ [unread, unwritten, unwritten]
      ⟨lists.put project target, none⟩ := by
  have hread : Lists.MayLose lists ⟨project.reading, Lists.report (lists project)⟩ lists :=
    .inl (.inl (Lists.serves_answer project.reading lists))
  have hlost : Lists.MayLose lists ⟨project.writing target, .error fault⟩
      (lists.put project target) :=
    .inr ⟨rfl, _, Lists.serves_answer (project.writing target) lists⟩
  have hunread : Runs Lists.MayLose (.create plan) ⟨lists, none⟩ unread ⟨lists, none⟩ :=
    ⟨.cons .nil, .cons (.inl (.inr ⟨rfl, rfl⟩)) .nil, rfl⟩
  have hunwritten : Runs Lists.MayLose (.create plan) ⟨lists, none⟩ unwritten ⟨lists, none⟩ :=
    ⟨.cons (.cons .nil), .cons hread (.cons (.inl (.inr ⟨rfl, rfl⟩)) .nil), rfl⟩
  have hwritten : Runs Lists.MayLose (.create plan) ⟨lists, none⟩ unwritten
      ⟨lists.put project target, none⟩ :=
    ⟨.cons (.cons .nil), .cons hread (.cons hlost .nil), rfl⟩
  exact .cons hunread (.cons hunwritten (.cons hwritten .nil))

/-- The fourth trial finds the server as the third one left it. -/
theorem good_runs :
    Runs Lists.Serves (.create plan) ⟨lists.put project target, none⟩ good
      ⟨lists.put project target, some plan.withId⟩ :=
  ⟨.cons .nil, .cons (Lists.serves_answer project.reading _) .nil, rfl⟩

end Unlucky

/-- **The fourth trial finds the entry, and the list is as if there had been
one trial only.** A delete of the repeated id comes to an empty list. -/
theorem retried_until_settled_unlucky :
    Unlucky.plan.validate = [] ∧
    Passes (Runs Lists.MayLose (.create Unlucky.plan)) ⟨Unlucky.lists, none⟩
      [Unlucky.unread, Unlucky.unwritten, Unlucky.unwritten]
      ⟨Unlucky.lists.put Unlucky.project Unlucky.target, none⟩ ∧
    Unlucky.good.outcome = ⟨some { Unlucky.plan with id := some "p-a" }, []⟩ ∧
    (Unlucky.lists.put Unlucky.project Unlucky.target) Unlucky.project = some ["c", "a"] ∧
    ∃ goal, Converges .delete Unlucky.project ⟨Unlucky.lists, some Unlucky.other⟩ goal ∧
      goal.lists Unlucky.project = some [] := by
  have hvalid : Unlucky.plan.validate = [] := by decide
  obtain ⟨hcreate, hdelete⟩ := retried_until_settled Unlucky.lists
  obtain ⟨p, hp, hconverges⟩ := hcreate Unlucky.plan none hvalid
  obtain rfl : Unlucky.project = p := Option.some.inj hp
  obtain ⟨hout, hgoal⟩ := hconverges.again Unlucky.earlier_runs Unlucky.good_runs
  have hlists := congrFun (congrArg Scene.lists hgoal) Unlucky.project
  refine ⟨hvalid, Unlucky.earlier_runs, hout, hlists.trans (by decide), _,
    hdelete Unlucky.other Unlucky.project rfl, by decide⟩

end Trial

end TrafficGate
