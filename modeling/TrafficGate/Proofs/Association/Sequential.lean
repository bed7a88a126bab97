import TrafficGate.Proofs.Association.Lifecycle
import TrafficGate.Proofs.Association.Lists
/-!
# Operations one after another

Any number of associations over any number of projects, and one operation
at a time, against a server whose calls may fail before or after they take
effect. What an operation does to the lists is one step (`Happens.lists`,
`Happens.reflected`); along a run nobody's entry is touched but those that
the run names, and what went well stays as it was wanted until somebody
names it again.
-/

namespace TrafficGate

open Dialogue (Gives Passes)

/-! ## Runs -/

/-- The lists of a server, and what is tracked of each object. -/
structure AssociationWorld (ν : Type) where
  lists : Lists
  tracked : ν → Option Association

/-- An operation on an object, with what was tracked of it before and what
came of it. -/
structure AssociationEvent (ν : Type) where
  object : ν
  configured : Bool
  operation : Operation Association
  before : Option Association
  outcome : Outcome Association

namespace AssociationEvent

variable {ν : Type}

/-- The entry that the operation is out to settle. -/
def settling? (e : AssociationEvent ν) : Option (ProjectKey × Settling) :=
  e.operation.settling? e.before

/-- The filter that the operation names in the list of a project. -/
def named? (p : ProjectKey) (e : AssociationEvent ν) : Option String :=
  e.settling?.bind fun entry => if entry.1 = p then some entry.2.filterId else none

/-- The filters that a run names in the list of a project. -/
def named (es : List (AssociationEvent ν)) (p : ProjectKey) : List String :=
  es.filterMap (named? p)

/-- The operation takes place: some log of calls ends it, the server
answers the log, and the object tracks what comes of it. -/
def Happens [DecidableEq ν] (w : AssociationWorld ν) (e : AssociationEvent ν)
    (w' : AssociationWorld ν) : Prop :=
  e.before = w.tracked e.object ∧
  w'.tracked = Function.update w.tracked e.object e.outcome.state ∧
  ∃ log, Gives ((associationResource e.configured).carryOut e.before e.operation).calls log
      e.outcome ∧
    Passes Lists.MayLose w.lists log w'.lists

variable {e : AssociationEvent ν} {es : List (AssociationEvent ν)} {p : ProjectKey} {s : Settling}

/-- An event that settles an entry names its filter. -/
theorem named?_of_settling? (h : e.settling? = some (p, s)) : e.named? p = some s.filterId := by
  simp [named?, h]

@[simp] theorem named_cons :
    named (e :: es) p = (e.named? p).toList ++ named es p := by
  cases h : e.named? p with
  | none => simp [named, h]
  | some x => simp [named, h]

/-! ## One operation -/

section Step

variable [DecidableEq ν] {w w' : AssociationWorld ν}

/-- **An operation writes its own entry or nothing.** -/
theorem Happens.lists (h : Happens w e w') :
    w'.lists = w.lists ∨ ∃ q s target, e.settling? = some (q, s) ∧
      s.target? (w.lists.members q) = some target ∧ w'.lists = w.lists.put q target := by
  obtain ⟨-, -, log, hgives, hpasses⟩ := h
  cases hentry : e.settling? with
  | none =>
    rcases AssociationResource.calls_of_no_settling e.configured hentry with
      ⟨out, hcalls⟩ | ⟨q, f, hcalls⟩
    · rw [hcalls] at hgives
      obtain ⟨rfl, -⟩ := Dialogue.gives_done.1 hgives
      exact .inl (Dialogue.passes_nil.1 hpasses)
    · rw [hcalls] at hgives
      obtain ⟨o, rfl, -⟩ := Dialogue.gives_ask_done.1 hgives
      simp only [Dialogue.passes_cons, Dialogue.passes_nil] at hpasses
      obtain ⟨_, hread, hmid⟩ := hpasses
      exact .inl (hmid.trans hread.of_reading.1)
  | some entry =>
    obtain ⟨q, s⟩ := entry
    rcases AssociationResource.calls_of_settling e.configured hentry with
      ⟨ds, -, hcalls⟩ | ⟨-, hcalls⟩
    · rw [hcalls] at hgives
      obtain ⟨rfl, -⟩ := Dialogue.gives_done.1 hgives
      exact .inl (Dialogue.passes_nil.1 hpasses)
    · rw [hcalls] at hgives
      obtain ⟨r, hattempt, -⟩ := Dialogue.gives_bind_done.1 hgives
      rcases (Settling.passes_attempt hattempt hpasses).1 with hsame | ⟨target, htarget, hput⟩
      · exact .inl hsame
      · exact .inr ⟨q, s, target, rfl, htarget, hput⟩

/-- **Where it reports no error, its entry is as it is wanted.** -/
theorem Happens.reflected (h : Happens w e w') (hentry : e.settling? = some (p, s))
    (hok : e.outcome.diagnostics.hasError = false) : s.Reflected (w'.lists.ids p) := by
  obtain ⟨-, -, log, hgives, hpasses⟩ := h
  rcases AssociationResource.calls_of_settling e.configured hentry with
    ⟨ds, hds, hcalls⟩ | ⟨-, hcalls⟩
  · rw [hcalls] at hgives
    obtain ⟨-, hout⟩ := Dialogue.gives_done.1 hgives
    simp [hout, hds] at hok
  · rw [hcalls] at hgives
    obtain ⟨r, hattempt, hout⟩ := Dialogue.gives_bind_done.1 hgives
    rw [hout] at hok
    obtain ⟨v, rfl⟩ := Outcome.exists_of_orError hok
    exact (Settling.passes_attempt hattempt hpasses).2 v rfl

/-- An operation that ends without an error and is to settle something has
an entry, so a project of a known kind. -/
theorem Happens.project?_of_create {plan : Association} (h : Happens w e w')
    (hop : e.operation = .create plan) (hok : e.outcome.diagnostics.hasError = false) :
    ∃ q, plan.project? = some q := by
  obtain ⟨-, -, log, hgives, -⟩ := h
  rw [hop] at hgives
  rcases AssociationResource.calls_create e.configured plan e.before with
    ⟨ds, hds, hcalls⟩ | ⟨-, -, q, hq, -⟩
  · have hout := (Dialogue.gives_done.1 (hcalls ▸ hgives)).2
    simp [hout, hds] at hok
  · exact ⟨q, hq⟩

/-- A delete that ends well had a project that could be found. -/
theorem Happens.project?_of_delete {tracked : Association} (h : Happens w e w')
    (hop : e.operation = .delete) (hbefore : e.before = some tracked)
    (hok : e.outcome.diagnostics.hasError = false) : ∃ q, tracked.project? = some q := by
  obtain ⟨-, -, log, hgives, -⟩ := h
  rw [hop, hbefore] at hgives
  rcases AssociationResource.calls_delete e.configured tracked with
    ⟨err, hcalls⟩ | ⟨-, q, hq, -⟩
  · have hout := (Dialogue.gives_done.1 (hcalls ▸ hgives)).2
    simp [hout] at hok
  · exact ⟨q, hq⟩

/-! ### What a step leaves alone -/

/-- A list for which an event names no filter is left alone. -/
theorem Happens.lists_of_not_named (h : Happens w e w') (hp : e.named? p = none) :
    w'.lists p = w.lists p := by
  rcases h.lists with hsame | ⟨q, s, target, hentry, -, hput⟩
  · rw [hsame]
  · rw [hput, Lists.put_of_ne]
    rintro rfl
    simp [named?_of_settling? hentry] at hp

/-- **The members that a step does not name stay, in their order.** -/
theorem Happens.members_filter (h : Happens w e w') {keep : String → Bool}
    (hkeep : ∀ x, e.named? p = some x → keep x = false) :
    (w'.lists.members p).ids.filter keep = (w.lists.members p).ids.filter keep := by
  rcases h.lists with hsame | ⟨q, s, target, hentry, htarget, hput⟩
  · rw [hsame]
  -- the one list that was written is this one, or it is another
  by_cases hq : p = q
  · obtain rfl := hq
    have hs : keep s.filterId = false := hkeep _ (named?_of_settling? hentry)
    rw [hput, Lists.members_put, Settling.ids_of_target? htarget, Settling.filter_edit hs]
  · rw [hput, Lists.members, Lists.ids, Lists.put_of_ne hq]
    rfl

/-! ### Every operation can take place -/

/-- The operation as a server carries it out, and the world after it. -/
def performed (answer : (c : Call) → Lists → c.Outcome × Lists) (w : AssociationWorld ν)
    (object : ν) (op : Operation Association) : AssociationEvent ν × AssociationWorld ν :=
  let result := ((associationResource true).carryOut (w.tracked object) op).calls.runWith answer
    w.lists
  (⟨object, true, op, w.tracked object, result.1⟩,
    ⟨result.2, Function.update w.tracked object result.1.state⟩)

/-- What an operation does against a server is an event that can happen. -/
theorem happens_performed {answer : (c : Call) → Lists → c.Outcome × Lists}
    (hanswer : ∀ c l, Lists.MayLose l ⟨c, (answer c l).1⟩ (answer c l).2)
    (w : AssociationWorld ν) (object : ν) (op : Operation Association) :
    Happens w (performed answer w object op).1 (performed answer w object op).2 :=
  ⟨rfl, rfl, Dialogue.gives_runWith hanswer _ _⟩

end Step

/-! ## Runs of operations -/

section Run

variable [DecidableEq ν] {w w' : AssociationWorld ν}

/-- A list for which no event names a filter is left alone by a run. -/
theorem lists_of_not_named (h : Passes Happens w es w') (hp : named es p = []) :
    w'.lists p = w.lists p := by
  induction es generalizing w with
  | nil => rw [Dialogue.passes_nil.1 h]
  | cons e es ih =>
    obtain ⟨mid, hstep, hrest⟩ := Dialogue.passes_cons.1 h
    rw [named_cons, List.append_eq_nil_iff, Option.toList_eq_nil_iff] at hp
    rw [ih hrest hp.2, hstep.lists_of_not_named hp.1]

/-- **The members that a run does not name stay, in their order.** -/
theorem members_filter (h : Passes Happens w es w') {keep : String → Bool}
    (hkeep : ∀ x ∈ named es p, keep x = false) :
    (w'.lists.members p).ids.filter keep = (w.lists.members p).ids.filter keep := by
  induction es generalizing w with
  | nil => rw [Dialogue.passes_nil.1 h]
  | cons e es ih =>
    obtain ⟨mid, hstep, hrest⟩ := Dialogue.passes_cons.1 h
    simp only [named_cons, List.mem_append, Option.mem_toList] at hkeep
    rw [ih hrest fun x hx => hkeep x (.inr hx),
      hstep.members_filter fun x hx => hkeep x (.inl hx)]

/-- A filter that no event names is on the list after a run exactly if it was
before. -/
theorem mem_ids_of_not_named {x : String} (h : Passes Happens w es w') (hx : x ∉ named es p) :
    x ∈ w'.lists.ids p ↔ x ∈ w.lists.ids p := by
  have hkeep : ∀ y ∈ named es p, decide (y = x) = false := by
    intro y hy
    have hne : y ≠ x := fun hyx => hx (hyx ▸ hy)
    simpa using hne
  -- the members that are `x` are among those that nobody names
  have hfilter := members_filter h hkeep
  have hmem : ∀ l : Lists, x ∈ l.ids p ↔ x ∈ (l.members p).ids.filter (· = x) := by
    simp [Lists.mem_members]
  rw [hmem, hmem, hfilter]

/-- An entry stays as it is wanted while nobody names it. -/
theorem reflected_of_not_named (h : Passes Happens w es w') (hs : s.filterId ∉ named es p)
    (hreflected : s.Reflected (w.lists.ids p)) : s.Reflected (w'.lists.ids p) := by
  obtain ⟨_ | _, f⟩ := s
  · exact (mem_ids_of_not_named h hs).2 hreflected
  · exact fun hf => hreflected ((mem_ids_of_not_named h hs).1 hf)

/-- What an operation settled is so when it returns, and still so after a
run that does not name it. -/
theorem Happens.reflected_until {w₁ w₂ : AssociationWorld ν} (h : Happens w₁ e w₂)
    (hlater : Passes Happens w₂ es w') (hentry : e.settling? = some (p, s))
    (hok : e.outcome.diagnostics.hasError = false) :
    s.Reflected (w₂.lists.ids p) ∧
      (s.filterId ∉ named es p → s.Reflected (w'.lists.ids p)) :=
  ⟨h.reflected hentry hok, fun hs => reflected_of_not_named hlater hs (h.reflected hentry hok)⟩

/-- **Operations one after another keep out of each other's way**, with
whatever calls failing, before or after they took effect. A list that no
operation names is the same at the end. Of a list that is named, the ids
that nobody names are the same members in the same order. And a create or
a delete that reported no error is true of the list when it returns, and
at the end unless somebody has named its entry again. -/
theorem run_settles_entries (h : Passes Happens w es w') :
    (∀ p, named es p = [] → w'.lists p = w.lists p) ∧
    (∀ p, (∀ x, x ∉ named es p → (x ∈ w'.lists.ids p ↔ x ∈ w.lists.ids p)) ∧
      (Membership.firsts (w'.lists.ids p)).filter (· ∉ named es p) =
        (Membership.firsts (w.lists.ids p)).filter (· ∉ named es p)) ∧
    (∀ es₁ e es₂, es = es₁ ++ e :: es₂ → e.outcome.diagnostics.hasError = false →
      ∃ returned, Passes Happens w (es₁ ++ [e]) returned ∧ Passes Happens returned es₂ w' ∧
        (∀ plan, e.operation = .create plan → ∃ p, plan.project? = some p ∧
          plan.filterId ∈ returned.lists.ids p ∧
          (plan.filterId ∉ named es₂ p → plan.filterId ∈ w'.lists.ids p)) ∧
        (∀ tracked, e.operation = .delete → e.before = some tracked →
          ∃ p, tracked.project? = some p ∧
            tracked.filterId ∉ returned.lists.ids p ∧
            (tracked.filterId ∉ named es₂ p → tracked.filterId ∉ w'.lists.ids p))) := by
  refine ⟨fun p => lists_of_not_named h, fun p => ⟨fun x => mem_ids_of_not_named h, ?_⟩, ?_⟩
  · exact members_filter h fun x hx => by simpa using hx
  rintro es₁ e es₂ rfl hok
  obtain ⟨w₁, hearlier, hrest⟩ := Dialogue.passes_append.1 h
  obtain ⟨w₂, hstep, hlater⟩ := Dialogue.passes_cons.1 hrest
  have hreturned : Passes Happens w (es₁ ++ [e]) w₂ :=
    Dialogue.passes_append.2 ⟨w₁, hearlier, .cons hstep .nil⟩
  refine ⟨w₂, hreturned, hlater, ?_, ?_⟩
  -- without an error the kind of the project was known, so there is an entry
  · intro plan hop
    obtain ⟨p, hp⟩ := hstep.project?_of_create hop hok
    have hentry : e.settling? = some (p, ⟨.present, plan.filterId⟩) := by
      simp [settling?, hop, Operation.settling?, Association.settling?, hp]
    exact ⟨p, hp, hstep.reflected_until hlater hentry hok⟩
  · intro tracked hop hbefore
    obtain ⟨p, hp⟩ := hstep.project?_of_delete hop hbefore hok
    have hentry : e.settling? = some (p, ⟨.absent, tracked.filterId⟩) := by
      simp [settling?, hop, hbefore, Operation.settling?, Association.settling?, hp]
    exact ⟨p, hp, hstep.reflected_until hlater hentry hok⟩

end Run

/-! ### A create whose answer is lost

The list is written, the create fails all the same, and another one finds
the entry. -/

namespace Retried

def plan : Association :=
  { projectId := "p", projectType := "elasticsearch", filterId := "a" }

/-- Every list holds another filter twice, and nothing is tracked. -/
def world : AssociationWorld Bool where
  lists _ := some ["x", "x"]
  tracked _ := none

/-- A server that serves what is written to it and does not say so. -/
def silent : (c : Call) → Lists → c.Outcome × Lists
  | .patchProject kind id patch, l =>
    (.error (.transport (.unanswered "")), (Lists.answer (.patchProject kind id patch) l).2)
  | c, l => Lists.answer c l

/-- A server that keeps silent may have written all the same. -/
theorem mayLose_silent (c : Call) (l : Lists) :
    Lists.MayLose l ⟨c, (silent c l).1⟩ (silent c l).2 := by
  cases c with
  | patchProject kind id patch =>
    exact .inr ⟨rfl, _, Lists.serves_answer (.patchProject kind id patch) l⟩
  | getProject kind id => exact .inl (.inl (Lists.serves_answer _ l))
  | createFilter creation => exact .inl (.inl rfl)
  | getFilter id => exact .inl (.inl rfl)
  | patchFilter id patch => exact .inl (.inl rfl)
  | deleteFilter id => exact .inl (.inl rfl)

def first : AssociationEvent Bool × AssociationWorld Bool :=
  performed silent world false (.create plan)

def second : AssociationEvent Bool × AssociationWorld Bool :=
  performed Lists.answer first.2 true (.create plan)

end Retried

/-- **The answer to the write is lost, and the create is repeated**: the
filter is on the list, and so is the one that was there before. -/
theorem run_settles_entries_retried :
    Passes Happens Retried.world [Retried.first.1, Retried.second.1] Retried.second.2 ∧
    Retried.first.1.outcome.diagnostics.hasError = true ∧
    Retried.second.1.outcome.diagnostics.hasError = false ∧
    "x" ∈ Retried.second.2.lists.ids ⟨.elasticsearch, "p"⟩ ∧
    "a" ∈ Retried.second.2.lists.ids ⟨.elasticsearch, "p"⟩ := by
  have hrun : Passes Happens Retried.world [Retried.first.1, Retried.second.1]
      Retried.second.2 :=
    .cons (happens_performed Retried.mayLose_silent _ _ _)
      (.cons (happens_performed (fun c l => .inl (.inl (Lists.serves_answer c l))) _ _ _) .nil)
  have hok : Retried.second.1.outcome.diagnostics.hasError = false := by decide
  obtain ⟨-, hothers, hsettled⟩ := run_settles_entries hrun
  obtain ⟨_, -, -, hcreated, -⟩ := hsettled [Retried.first.1] Retried.second.1 [] rfl hok
  obtain ⟨p, hp, -, hmem⟩ := hcreated Retried.plan rfl
  obtain rfl : (⟨.elasticsearch, "p"⟩ : ProjectKey) = p := Option.some.inj hp
  refine ⟨hrun, by decide, hok, ?_, hmem (by decide)⟩
  exact ((hothers ⟨.elasticsearch, "p"⟩).1 "x" (by decide)).2 (by decide)

end AssociationEvent

end TrafficGate
