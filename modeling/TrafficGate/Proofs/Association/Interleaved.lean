import TrafficGate.Proofs.Association.Lifecycle
import TrafficGate.Proofs.Association.Lists
import TrafficGate.Proofs.Dialogue.Interleaving
import Mathlib.Data.List.Induction
/-!
# Operations side by side

Any number of creates and deletes on the list of one project, their reads
and writes in any order, against a server whose calls may be refused. A
write sends the whole list its operation read, with one entry changed, so
the list is always what one operation read some time ago, but for that
entry (`lists_of_last_write`).

An operation is overtaken when the write of another lands between its
read and its write (`Overtakes`). What was read is the list as it is
unless a write has landed since (`current_or_overtaken`), and so, where
nobody is overtaken, the operations might have been run in turn
(`inTurn_of_not_overtaken`).
-/

namespace TrafficGate

open Dialogue (After Gives Interleaves Passes inTurn lastSteps share)

/-- An interleaving of operations: who made which call, and what came of
it. -/
abbrev Schedule (κ : Type) := List (κ × AnsweredCall)

namespace Schedule

variable {κ : Type}

/-- The calls of a schedule. -/
def calls (t : Schedule κ) : List AnsweredCall := t.map Prod.snd

/-- The calls of two schedules in a row. -/
@[simp] theorem calls_append (t₁ t₂ : Schedule κ) : calls (t₁ ++ t₂) = t₁.calls ++ t₂.calls :=
  List.map_append

/-- No write of a schedule landed. -/
def Quiet (t : Schedule κ) : Prop := ∀ e ∈ t, Lists.landed e.2 = false

/-- A write of `j` lands between the two calls of `i`, and the second of
these, the write of `i`, lands too. -/
def Overtakes (t : Schedule κ) (j i : κ) : Prop :=
  ∃ e₁ e e₂, List.Sublist [(i, e₁), (j, e), (i, e₂)] t ∧
    Lists.landed e = true ∧ Lists.landed e₂ = true

/-- Whoever was overtaken stays so. -/
theorem Overtakes.append {t₁ : Schedule κ} {j i : κ} (h : t₁.Overtakes j i) (t₂ : Schedule κ) :
    Overtakes (t₁ ++ t₂) j i := by
  obtain ⟨e₁, e, e₂, hsub, he⟩ := h
  exact ⟨e₁, e, e₂, hsub.trans (List.sublist_append_left _ _), he⟩

/-- Either no write landed, or there is a last one. -/
theorem last_write (t : Schedule κ) :
    t.Quiet ∨ ∃ t₁ i e t₂, t = t₁ ++ (i, e) :: t₂ ∧ Lists.landed e = true ∧ Quiet t₂ := by
  induction t with
  | nil => exact .inl (by simp [Quiet])
  | cons first t ih =>
    obtain ⟨i, e⟩ := first
    rcases ih with hnone | ⟨t₁, j, e', t₂, rfl, he', hlast⟩
    · cases he : Lists.landed e with
      | false => exact .inl (List.forall_mem_cons.2 ⟨he, hnone⟩)
      | true => exact .inr ⟨[], i, e, t, rfl, he, hnone⟩
    · exact .inr ⟨(i, e) :: t₁, j, e', t₂, rfl, he', hlast⟩

end Schedule

namespace Settling

variable {κ : Type} [DecidableEq κ] {p : ProjectKey} {s : κ → Settling} {t t₁ t₂ : Schedule κ}
  {l l₁ l' : Lists} {i j : κ}

/-- The attempts to settle a family of entries of one list. -/
def attempts (p : ProjectKey) (s : κ → Settling) (i : κ) :
    CallM (Except ResourceError (Transition × Diagnostics)) :=
  ((s i).attempt p).calls

variable {left : κ → CallM (Except ResourceError (Transition × Diagnostics))}

/-! ## What the list is -/

/-- Only reads and writes of the one project are asked for. -/
theorem call_of_mem {e : AnsweredCall} (h : Interleaves (attempts p s) t left) (he : (i, e) ∈ t) :
    (∃ o, e = ⟨p.reading, o⟩) ∨ ∃ target o, e = ⟨p.writing target, o⟩ := by
  have hmem : e ∈ share i t := Dialogue.mem_share.2 he
  rcases after_attempt.1 (h i) with ⟨hlog, -⟩ | ⟨o, hlog, -⟩ | ⟨o, target, o', hlog, -⟩
  · simp [hlog] at hmem
  · rw [hlog, List.mem_singleton] at hmem
    exact .inl ⟨o, hmem⟩
  · rw [hlog, List.mem_cons, List.mem_singleton] at hmem
    rcases hmem with rfl | rfl
    · exact .inl ⟨o, rfl⟩
    · exact .inr ⟨target, o', rfl⟩

/-- **A write that landed was due for what the same operation read**, and
that operation did nothing else. -/
theorem read_of_landed {e : AnsweredCall}
    (h : Interleaves (attempts p s) (t₁ ++ (i, e) :: t₂) left) (he : Lists.landed e = true) :
    ∃ t₀ o rest target o', t₁ = t₀ ++ (i, ⟨p.reading, o⟩) :: rest ∧
      e = ⟨p.writing target, o'⟩ ∧ (s i).afterReading p o = .due target ∧
      share i t₀ = [] ∧ share i rest = [] ∧ share i t₂ = [] := by
  have hi := h i
  rw [Dialogue.share_append, Dialogue.share_cons_self] at hi
  rcases after_attempt.1 hi with ⟨hlog, -⟩ | ⟨o, hlog, -⟩ | ⟨o, target, o', hlog, hdue, -⟩
  · simp at hlog
  · obtain ⟨-, heq⟩ | ⟨-, heq⟩ := List.append_eq_singleton_iff.1 hlog
    · obtain ⟨rfl, -⟩ := List.cons.inj heq
      cases he
    · cases heq
  · -- the read comes first, so the write that landed is the second call
    cases hshare : share i t₁ with
    | nil =>
      rw [hshare] at hlog
      obtain ⟨rfl, -⟩ := List.cons.inj hlog
      cases he
    | cons e₁ es =>
      rw [hshare] at hlog
      obtain ⟨rfl, htail⟩ := List.cons.inj hlog
      obtain ⟨rfl, heq⟩ | ⟨-, heq⟩ := List.append_eq_singleton_iff.1 htail
      · obtain ⟨rfl, hnone⟩ := List.cons.inj heq
        obtain ⟨t₀, rest, rfl, h₀, hrest⟩ := Dialogue.exists_of_share_eq_singleton hshare
        exact ⟨t₀, o, rest, target, o', rfl, rfl, hdue, h₀, hrest, hnone⟩
      · cases heq

omit [DecidableEq κ] in
/-- Calls that wrote nothing changed nothing. -/
theorem lists_of_quiet (hpasses : Passes Lists.MayRefuse l t.calls l') (hquiet : t.Quiet) :
    l' = l := by
  induction t generalizing l with
  | nil => exact Dialogue.passes_nil.1 hpasses
  | cons e t ih =>
    obtain ⟨mid, hstep, hrest⟩ := Dialogue.passes_cons.1 hpasses
    obtain ⟨he, ht⟩ := List.forall_mem_cons.1 hquiet
    rw [ih hrest ht, hstep.of_not_landed he]

/-- The lists of other projects stay as they are. -/
theorem lists_elsewhere (h : Interleaves (attempts p s) t left)
    (hpasses : Passes Lists.MayRefuse l t.calls l') {q : ProjectKey} (hq : q ≠ p) :
    l' q = l q := by
  have hcalls : ∀ e ∈ t, (∃ o, e.2 = ⟨p.reading, o⟩) ∨ ∃ target o, e.2 = ⟨p.writing target, o⟩ :=
    fun e he => call_of_mem h he
  clear h
  induction t generalizing l with
  | nil => rw [Dialogue.passes_nil.1 hpasses]
  | cons first t ih =>
    obtain ⟨mid, hstep, hrest⟩ := Dialogue.passes_cons.1 hpasses
    rw [ih hrest fun e he => hcalls e (List.mem_cons_of_mem _ he)]
    obtain ⟨i, e⟩ := first
    rcases hcalls _ (List.mem_cons_self ..) with ⟨o, rfl⟩ | ⟨target, o, rfl⟩
    · rw [hstep.of_reading.1]
    · rcases hstep.of_writing with ⟨-, rfl, -⟩ | ⟨-, rfl, -⟩
      · exact Lists.put_of_ne hq
      · rfl

omit [DecidableEq κ] in
/-- A read passes on what the list is at the time. -/
theorem snapshot_of_read {o : p.reading.Outcome}
    (hpasses : Passes Lists.MayRefuse l (Schedule.calls (t₁ ++ (i, ⟨p.reading, o⟩) :: t₂)) l') :
    ∃ l₀, Passes Lists.MayRefuse l t₁.calls l₀ ∧ Passes Lists.MayRefuse l₀ t₂.calls l' ∧
      ∀ m, p.reported .readProject o = .ok m → m = l₀.members p := by
  rw [Schedule.calls_append, Dialogue.passes_append] at hpasses
  obtain ⟨l₀, hstart, hreading⟩ := hpasses
  obtain ⟨l₁, hread, hlater⟩ := Dialogue.passes_cons.1 hreading
  obtain ⟨rfl, hreported⟩ := hread.of_reading
  exact ⟨l₁, hstart, hlater, hreported⟩

/-- **The list is what the last writer read, with its entry changed.** -/
theorem lists_of_last_write {e : AnsweredCall}
    (h : Interleaves (attempts p s) (t₁ ++ (i, e) :: t₂) left)
    (hpasses : Passes Lists.MayRefuse l (Schedule.calls (t₁ ++ (i, e) :: t₂)) l')
    (he : Lists.landed e = true) (hlast : Schedule.Quiet t₂) :
    ∃ t₀ o rest l₀, t₁ = t₀ ++ (i, ⟨p.reading, o⟩) :: rest ∧ share i t₀ = [] ∧
      Passes Lists.MayRefuse l (Schedule.calls t₀) l₀ ∧
      l' = Function.update l p (some ((s i).edit (l₀.members p).ids)) := by
  have helsewhere : ∀ q, q ≠ p → l' q = l q := fun q hq => lists_elsewhere h hpasses hq
  obtain ⟨t₀, o, rest, target, o', rfl, rfl, hdue, h₀, -⟩ := read_of_landed h he
  rw [List.append_assoc, List.cons_append] at hpasses
  obtain ⟨l₀, hstart, hafter, hsnapshot⟩ := snapshot_of_read hpasses
  obtain ⟨m, hm, htarget⟩ := afterReading_eq_due hdue
  obtain rfl := hsnapshot m hm
  refine ⟨t₀, o, rest, l₀, rfl, h₀, hstart, ?_⟩
  rw [Schedule.calls_append, Dialogue.passes_append] at hafter
  obtain ⟨l₁, -, hwriting⟩ := hafter
  obtain ⟨l₂, hwrite, hquiet⟩ := Dialogue.passes_cons.1 hwriting
  obtain rfl := lists_of_quiet hquiet hlast
  rcases hwrite.of_writing with ⟨-, rfl, -⟩ | ⟨hfails, -⟩
  · funext q
    by_cases hq : q = p
    · obtain rfl := hq
      simp [Lists.put, ids_of_target? htarget]
    · simp [hq, helsewhere q hq]
  · rw [hfails] at he
    cases he

/-- **No id comes from nowhere**: it was in the list, or an operation that
is under way wants it there. -/
theorem mem_ids (h : Interleaves (attempts p s) t left)
    (hpasses : Passes Lists.MayRefuse l t.calls l') {x : String} (hx : x ∈ l'.ids p) :
    x ∈ l.ids p ∨ ∃ i, (s i).aim = .present ∧ (s i).filterId = x ∧ i ∈ t.map Prod.fst := by
  -- the last writer read the list after fewer steps
  induction hn : t.length using Nat.strongRecOn generalizing t l' left with
  | ind n ih =>
    rcases t.last_write with hquiet | ⟨t₁, i, e, t₂, rfl, he, hlast⟩
    · rw [lists_of_quiet hpasses hquiet] at hx
      exact .inl hx
    obtain ⟨t₀, o, rest, l₀, rfl, -, hstart, rfl⟩ := lists_of_last_write h hpasses he hlast
    rw [Lists.ids_update] at hx
    by_cases hxi : x = (s i).filterId
    · obtain rfl := hxi
      exact .inr ⟨i, aim_of_mem_edit hx, rfl, by simp⟩
    · rw [mem_edit_of_ne _ _ hxi, Lists.mem_members] at hx
      rw [List.append_assoc] at h
      obtain ⟨mid, hmid⟩ := h.of_append
      rcases ih t₀.length (by simp [← hn]) hmid hstart hx rfl with hinit | ⟨j, haim, hj, hmem⟩
      · exact .inl hinit
      · exact .inr ⟨j, haim, hj, by simp only [List.map_append, List.mem_append, hmem, true_or]⟩

/-! ## When nobody is overtaken -/

/-- **What was read is the list as it is, unless a write has landed since.** -/
theorem current_or_overtaken {o : p.reading.Outcome} {m : Membership}
    (hpasses : Passes Lists.MayRefuse l t.calls l') (hshare : share i t = [⟨p.reading, o⟩])
    (hm : p.reported .readProject o = .ok m) :
    m = l'.members p ∨
    ∃ j e₁ e, j ≠ i ∧ List.Sublist [(i, e₁), (j, e)] t ∧ Lists.landed e = true := by
  obtain ⟨t₀, rest, rfl, -, hrest⟩ := Dialogue.exists_of_share_eq_singleton hshare
  obtain ⟨l₀, -, hlater, hsnapshot⟩ := snapshot_of_read hpasses
  by_cases hquiet : Schedule.Quiet rest
  · left
    rw [lists_of_quiet hlater hquiet]
    exact hsnapshot m hm
  · right
    simp only [Schedule.Quiet, not_forall] at hquiet
    obtain ⟨⟨j, e⟩, hmem, hlanded⟩ := hquiet
    refine ⟨j, ⟨p.reading, o⟩, e, ?_, ?_, by simpa using hlanded⟩
    · -- the operation itself did nothing since it read
      rintro rfl
      rw [Dialogue.share_eq_nil_iff] at hrest
      exact hrest (List.mem_map.2 ⟨_, hmem, rfl⟩)
    · refine List.Sublist.trans ?_ (List.sublist_append_right _ _)
      exact (List.singleton_sublist.2 hmem).cons_cons _

/-- **One more step is a whole operation, or it comes to nothing** but what
is left to do: if nobody overtook the one that makes it. -/
theorem step_in_turn {e : AnsweredCall} (h : Interleaves (attempts p s) (t ++ [(i, e)]) left)
    (hpasses : Passes Lists.MayRefuse l t.calls l₁) (hstep : Lists.MayRefuse l₁ e l')
    (hno : ∀ j, j ≠ i → ¬ Schedule.Overtakes (t ++ [(i, e)]) j i) :
    (Dialogue.succeeded (left i) = false ∧ l' = l₁) ∨
    ∃ v, left i = .done (.ok v) ∧ (attempts p s i).runWith Lists.answer l₁ = (.ok v, l') := by
  have hi := h i
  rw [Dialogue.share_append, Dialogue.share_cons_self, Dialogue.share_nil] at hi
  rcases after_attempt_concat.1 hi with
    ⟨-, o, rfl, hleft⟩ | ⟨o, target, o', hshare, rfl, hdue, hleft⟩
  · -- a read: a write is due now, or the attempt is over without one
    obtain ⟨rfl, hreported⟩ := hstep.of_reading
    cases hstage : (s i).afterReading p o with
    | due target =>
      rw [hleft, hstage]
      exact .inl ⟨rfl, rfl⟩
    | settled r =>
      rw [hleft, hstage]
      cases r with
      | error err => exact .inl ⟨rfl, rfl⟩
      | ok v =>
        obtain ⟨rfl, m, hm, hreflected⟩ := afterReading_eq_ok hstage
        obtain rfl := hreported m hm
        refine .inr ⟨_, rfl, ?_⟩
        rw [attempts, runWith_attempt, target?_eq_none_iff.2 hreflected]
  · rcases hstep.of_writing with ⟨hlanded, rfl, hreported⟩ | ⟨-, rfl, hreported⟩
    · obtain ⟨m, hm, htarget⟩ := afterReading_eq_due hdue
      -- as nobody overtook it, it read the list that it now replaces
      rcases current_or_overtaken hpasses hshare hm with rfl | ⟨j, e₁, e, hj, hsub, he⟩
      · refine .inr ⟨((s i).made, []), ?_, ?_⟩
        · rw [hleft, afterWriting_of_reported hreported, remarks_self]
        · rw [attempts, runWith_attempt, htarget]
      · exact absurd ⟨e₁, e, _, hsub.append (List.Sublist.refl _), he, hlanded⟩ (hno j hj)
    · -- a write that was refused ends the attempt with an error
      refine .inl ⟨?_, rfl⟩
      rw [hleft]
      cases hresult : (s i).afterWriting p target o' with
      | error err => rfl
      | ok v =>
        obtain ⟨m, hm, -⟩ := afterWriting_eq_ok hresult
        exact absurd hm (hreported m)

/-- **Where nobody is overtaken, the operations that went well might have
been run in turn**, in the order of their last steps: the lists are the
same, and so is what came of each. -/
theorem inTurn_of_not_overtaken (h : Interleaves (attempts p s) t left)
    (hpasses : Passes Lists.MayRefuse l t.calls l')
    (hno : ∀ i j, j ≠ i → ¬ t.Overtakes j i) :
    let order := (lastSteps t).filter fun i => Dialogue.succeeded (left i)
    (inTurn Lists.answer (attempts p s) order l).2 = l' ∧
      ∀ r ∈ (inTurn Lists.answer (attempts p s) order l).1, left r.1 = .done r.2 := by
  induction t using List.reverseRecOn generalizing l' left with
  | nil =>
    obtain rfl := Dialogue.passes_nil.1 hpasses
    exact ⟨rfl, by simp [lastSteps, inTurn]⟩
  | append_singleton t last ih =>
    obtain ⟨i, e⟩ := last
    obtain ⟨mid, hprev, hmid⟩ := h.of_concat
    rw [Schedule.calls_append, Dialogue.passes_append] at hpasses
    obtain ⟨l₁, hbefore, hlast⟩ := hpasses
    obtain ⟨_, hstep, hend⟩ := Dialogue.passes_cons.1 hlast
    obtain rfl := Dialogue.passes_nil.1 hend
    obtain ⟨hlists, hresults⟩ := ih hprev hbefore fun i j hj hover => hno i j hj (hover.append _)
    -- whoever makes the last step was not over before it, so not in the order either
    have hunfinished : Dialogue.succeeded (Function.update left i mid i) = false := by
      cases mid with
      | done r => simp at hmid
      | ask q next => simp [Dialogue.succeeded]
    have hstay : ∀ j, j ≠ i →
        Dialogue.succeeded (left j) = Dialogue.succeeded (Function.update left i mid j) :=
      fun j hj => by simp [hj]
    have horder : (lastSteps (t ++ [(i, e)])).filter (fun j => Dialogue.succeeded (left j)) =
        (lastSteps t).filter (fun j => Dialogue.succeeded (Function.update left i mid j)) ++
          if Dialogue.succeeded (left i) then [i] else [] :=
      Dialogue.filter_lastSteps_concat hunfinished hstay
    have hresults' : ∀ r ∈ (inTurn Lists.answer (attempts p s) ((lastSteps t).filter fun j =>
        Dialogue.succeeded (Function.update left i mid j)) l).1, left r.1 = .done r.2 := by
      intro r hr
      have hdone := hresults r hr
      by_cases hri : r.1 = i
      · rw [hri, Function.update_self] at hdone
        simp [hdone] at hmid
      · simpa [hri] using hdone
    intro order
    change order = _ at horder
    rcases step_in_turn h hbefore hstep fun j hj => hno i j hj with ⟨hfailed, rfl⟩ | ⟨v, hv, hrun⟩
    · rw [hfailed, if_neg Bool.false_ne_true, List.append_nil] at horder
      rw [horder]
      exact ⟨hlists, hresults'⟩
    · rw [hv, Dialogue.succeeded, if_pos rfl] at horder
      rw [horder, Dialogue.inTurn_append, hlists, Dialogue.inTurn_singleton, hrun]
      refine ⟨rfl, fun r hr => ?_⟩
      rcases List.mem_append.1 hr with hr | hr
      · exact hresults' r hr
      · obtain rfl := List.mem_singleton.1 hr
        exact hv

omit [DecidableEq κ] in
/-- Operations run in turn leave alone what they do not name. -/
theorem reflected_inTurn {f : Settling} {is : List κ}
    (h : ∀ i ∈ is, f.filterId ≠ (s i).filterId) :
    f.Reflected ((inTurn Lists.answer (attempts p s) is l).2.ids p) ↔ f.Reflected (l.ids p) := by
  induction is generalizing l with
  | nil => rfl
  | cons i is ih =>
    obtain ⟨hi, his⟩ := List.forall_mem_cons.1 h
    rw [inTurn, ih his, attempts, reflected_runWith_of_ne hi]

omit [DecidableEq κ] in
/-- **In turn, no update is lost** but to one that names the same filter. -/
theorem reflected_of_inTurn {is js : List κ} (h : ∀ j ∈ js, (s i).filterId ≠ (s j).filterId) :
    (s i).Reflected ((inTurn Lists.answer (attempts p s) (is ++ i :: js) l).2.ids p) := by
  rw [Dialogue.inTurn_append, inTurn, reflected_inTurn h]
  exact reflected_runWith p (s i) _

end Settling

/-! ## Operations of the resource -/

/-- Whether an operation is over, and reports no error. -/
def completed {M : Type} : CallM (Outcome M) → Bool
  | .done out => !out.diagnostics.hasError
  | .ask _ _ => false

namespace AssociationResource

section Operations

variable {κ : Type} {configured : κ → Bool} {before : κ → Option Association}
  {op : κ → Operation Association} {p : ProjectKey} {s : κ → Settling}

/-- A family of operations on associations, each with a client or without
one and with what is tracked before it. -/
def operations (configured : κ → Bool) (before : κ → Option Association)
    (op : κ → Operation Association) (i : κ) : CallM (Outcome Association) :=
  ((associationResource (configured i)).carryOut (before i) (op i)).calls

/-- **An operation stands where its settling stands**, and one that
completed is its settling with the work on the model around it. -/
theorem settling_of_operation {i : κ} (hs : (op i).settling? (before i) = some (p, s i))
    {log : List AnsweredCall} {left : CallM (Outcome Association)}
    (h : After (operations configured before op i) log left) :
    ∃ mid, After (Settling.attempts p s i) log mid ∧ completed left = Dialogue.succeeded mid ∧
      (completed left = true →
        (operations configured before op i = (Settling.attempts p s i).bind fun r =>
          .done (concluded (before i) (op i).onceSettled r)) ∧
        left = mid.bind fun r => .done (concluded (before i) (op i).onceSettled r)) := by
  rcases calls_of_settling (configured i) hs with ⟨ds, hds, hcalls⟩ | ⟨-, hcalls⟩
  · -- it failed at once, and its settling never began
    rw [operations, hcalls] at h
    obtain ⟨rfl, rfl⟩ := Dialogue.after_done.1 h
    refine ⟨_, .nil, ?_, fun hcompleted => ?_⟩
    · simp [completed, hds, Settling.attempts, Settling.calls_attempt, Dialogue.succeeded]
    · simp [completed, hds] at hcompleted
  · rw [operations, hcalls] at h
    obtain ⟨mid, hmid, rfl⟩ := Dialogue.after_bind_done.1 h
    refine ⟨mid, hmid, ?_, fun _ => ⟨hcalls, rfl⟩⟩
    cases mid with
    | ask q next => rfl
    | done r =>
      cases r with
      | error e => simp [completed, concluded, Outcome.orError, Dialogue.succeeded]
      | ok v =>
        have hwarnings := Settling.hasError_of_gives hmid
        simp [completed, concluded, Outcome.orError, Dialogue.succeeded, hwarnings]

variable [DecidableEq κ] {t : Schedule κ} {l l' : Lists} {left : κ → CallM (Outcome Association)}

/-- **Creates and deletes side by side**, as far as they have come. The list
is the initial one until a write lands, and after that what the last writer
read with its one entry changed. Every id in it was there before or is that
of a create under way. And where no write lands between the two calls of
another that wrote, the operations that completed might have been run in
turn, in the order of their last calls: the lists are the same and so is
what came of each, and no update is lost. -/
theorem interleaved_operations (hs : ∀ i, (op i).settling? (before i) = some (p, s i))
    (h : Interleaves (operations configured before op) t left)
    (hpasses : Passes Lists.MayRefuse l t.calls l') :
    ((t.Quiet → l' = l) ∧
      ∀ t₁ i e t₂, t = t₁ ++ (i, e) :: t₂ → Lists.landed e = true → Schedule.Quiet t₂ →
        ∃ t₀ o rest l₀, t₁ = t₀ ++ (i, ⟨p.reading, o⟩) :: rest ∧
          Passes Lists.MayRefuse l (Schedule.calls t₀) l₀ ∧
          l' = Function.update l p (some ((s i).edit (l₀.members p).ids))) ∧
    (∀ x ∈ l'.ids p, x ∈ l.ids p ∨
      ∃ i plan, op i = .create plan ∧ plan.filterId = x ∧ i ∈ t.map Prod.fst) ∧
    ((∀ i j, j ≠ i → ¬ t.Overtakes j i) →
      let order := (lastSteps t).filter fun i => completed (left i)
      (inTurn Lists.answer (operations configured before op) order l).2 = l' ∧
      (∀ r ∈ (inTurn Lists.answer (operations configured before op) order l).1,
        left r.1 = .done r.2) ∧
      (∀ r ∈ (inTurn Lists.answer (Settling.attempts p s) order l).1,
        Gives (Settling.attempts p s r.1) (share r.1 t) r.2) ∧
      ∀ is i js, order = is ++ i :: js → (∀ j ∈ js, (s i).filterId ≠ (s j).filterId) →
        (s i).Reflected (l'.ids p)) := by
  have hsettlings := fun i => settling_of_operation (hs i) (h i)
  choose mid hmid hcompleted hbind using hsettlings
  refine ⟨⟨fun hquiet => Settling.lists_of_quiet hpasses hquiet, ?_⟩, ?_, ?_⟩
  · rintro t₁ i e t₂ rfl he hlast
    obtain ⟨t₀, o, rest, l₀, ht₁, -, hstart, hlists⟩ :=
      Settling.lists_of_last_write hmid hpasses he hlast
    exact ⟨t₀, o, rest, l₀, ht₁, hstart, hlists⟩
  · intro x hx
    rcases Settling.mem_ids hmid hpasses hx with hinit | ⟨i, haim, rfl, hi⟩
    · exact .inl hinit
    · obtain ⟨plan, hplan, hid⟩ := create_of_settling (hs i) haim
      exact .inr ⟨i, plan, hplan, hid, hi⟩
  · intro hno order
    obtain ⟨hlists, hresults⟩ := Settling.inTurn_of_not_overtaken hmid hpasses hno
    have horder : order = (lastSteps t).filter fun i => Dialogue.succeeded (mid i) :=
      List.filter_congr fun i _ => hcompleted i
    rw [← horder] at hlists hresults
    have hoperations : ∀ i ∈ order, operations configured before op i =
        (Settling.attempts p s i).bind fun r =>
          .done (concluded (before i) (op i).onceSettled r) :=
      fun i hi => (hbind i (List.mem_filter.1 hi).2).1
    rw [Dialogue.inTurn_bind_done hoperations]
    refine ⟨hlists, ?_, ?_, ?_⟩
    · rintro _ hmem
      obtain ⟨⟨i, r⟩, hr, rfl⟩ := List.mem_map.1 hmem
      have hi : i ∈ ((inTurn Lists.answer (Settling.attempts p s) order l).1).map Prod.fst :=
        List.mem_map.2 ⟨(i, r), hr, rfl⟩
      rw [Dialogue.map_fst_inTurn] at hi
      have hresult : mid i = .done r := hresults (i, r) hr
      change left i = .done (concluded (before i) (op i).onceSettled r)
      rw [(hbind i (List.mem_filter.1 hi).2).2, hresult]
      rfl
    · intro r hr
      have hgives := hmid r.1
      rw [hresults r hr] at hgives
      exact hgives
    · rintro is i js heq hjs
      rw [← hlists, heq]
      exact Settling.reflected_of_inTurn hjs

end Operations

/-! ### A delete between the calls of a create

The create of one association has read the list and not written it yet
when the delete of another looks for its entry, which is not there. -/

namespace Crossed

def project : ProjectKey := ⟨.elasticsearch, "p"⟩

def plan : Association := { projectId := "p", projectType := "elasticsearch", filterId := "a" }

def gone : Association := { projectId := "p", projectType := "elasticsearch", filterId := "b" }

/-- One operation creates, the other one deletes. -/
def op : Bool → Operation Association
  | false => .create plan
  | true => .delete

/-- The filter that is deleted is tracked. -/
def before : Bool → Option Association
  | false => none
  | true => some gone

def settling : Bool → Settling
  | false => ⟨.present, "a"⟩
  | true => ⟨.absent, "b"⟩

/-- At first a third filter is on every list. -/
def lists : Lists := fun _ => some ["x"]

def target : Membership := ⟨["x", "a"], by decide⟩

/-- The delete comes between the two calls of the create. -/
def schedule : Schedule Bool :=
  [(false, ⟨project.reading, Lists.report (some ["x"])⟩),
    (true, ⟨project.reading, Lists.report (some ["x"])⟩),
    (false, ⟨project.writing target, Lists.report (some ["x", "a"])⟩)]

/-- What is left of them is how they end. -/
def left : Bool → CallM (Outcome Association)
  | false => .done ⟨some plan.withId, []⟩
  | true => .done ⟨none, []⟩

theorem interleaves : Interleaves (operations (fun _ => true) before op) schedule left := by
  intro i
  cases i with
  | false => exact .cons (.cons .nil)
  | true => exact .cons .nil

/-- The server ends up with the list that was written. -/
theorem passes : Passes Lists.MayRefuse lists schedule.calls (lists.put project target) :=
  .cons (.inl (Lists.serves_answer project.reading lists))
    (.cons (.inl (Lists.serves_answer project.reading lists))
      (.cons (.inl (Lists.serves_answer (project.writing target) lists)) .nil))

/-- With three calls in all, the first would have to be that of a create,
and the second a write. -/
theorem not_overtakes (i j : Bool) : ¬ schedule.Overtakes j i := by
  rintro ⟨e₁, e, e₂, hsub, he, -⟩
  have heq := hsub.eq_of_length rfl
  simp only [schedule, List.cons.injEq, Prod.mk.injEq] at heq
  obtain ⟨-, ⟨-, rfl⟩, -⟩ := heq
  cases he

end Crossed

/-- **The delete might have come first.** -/
theorem interleaved_operations_crossed :
    (∀ i, (Crossed.op i).settling? (Crossed.before i) =
      some (Crossed.project, Crossed.settling i)) ∧
    Interleaves (operations (fun _ => true) Crossed.before Crossed.op) Crossed.schedule
      Crossed.left ∧
    Passes Lists.MayRefuse Crossed.lists Crossed.schedule.calls
      (Crossed.lists.put Crossed.project Crossed.target) ∧
    (inTurn Lists.answer (operations (fun _ => true) Crossed.before Crossed.op) [true, false]
      Crossed.lists).2 = Crossed.lists.put Crossed.project Crossed.target := by
  have hs : ∀ i, (Crossed.op i).settling? (Crossed.before i) =
      some (Crossed.project, Crossed.settling i) := by decide
  obtain ⟨-, -, hturn⟩ := interleaved_operations hs Crossed.interleaves Crossed.passes
  exact ⟨hs, Crossed.interleaves, Crossed.passes,
    (hturn fun i j _ => Crossed.not_overtakes i j).1⟩

end AssociationResource

end TrafficGate
