import TrafficGate.Dialogue
/-!
# Dialogues and their logs

A log lists the questions that a dialogue asked, each with the answer it
got. `After d log rest` says that `rest` is left of `d` once the log has
passed, and `Gives d log a` that the log ends it with the result `a`;
nothing is said about who answered. Whoever answers is a relation on
states, and `Passes` runs it along a log.

Composition is read off the log: a log of `bind` is a log of the first
part and then one of the second (`gives_bind`). Where the answers come from
a state, a dialogue has one log, its `transcript`.
-/

namespace TrafficGate

namespace Dialogue

variable {ι : Type} {ρ : ι → Type} {α β : Type}

/-- What is left of a dialogue after a log. -/
inductive After : Dialogue ι ρ α → List (Sigma ρ) → Dialogue ι ρ α → Prop
  | nil {d : Dialogue ι ρ α} : After d [] d
  | cons {q : ι} {next : ρ q → Dialogue ι ρ α} {r : ρ q} {log : List (Sigma ρ)}
      {rest : Dialogue ι ρ α} :
      After (next r) log rest → After (ask q next) (⟨q, r⟩ :: log) rest

/-- The log ends the dialogue, with this result. -/
def Gives (d : Dialogue ι ρ α) (log : List (Sigma ρ)) (a : α) : Prop := After d log (done a)

/-! ## `bind` -/

@[simp] theorem done_bind (a : α) (f : α → Dialogue ι ρ β) : (done a).bind f = f a := rfl

@[simp] theorem ask_bind (q : ι) (next : ρ q → Dialogue ι ρ α) (f : α → Dialogue ι ρ β) :
    (ask q next).bind f = ask q fun r => (next r).bind f := rfl

@[simp] theorem bind_eq_bind (d : Dialogue ι ρ α) (f : α → Dialogue ι ρ β) :
    d >>= f = d.bind f := rfl

@[simp] theorem pure_eq_done (a : α) : (pure a : Dialogue ι ρ α) = done a := rfl

/-- Three dialogues in a row can be put together from either end. -/
theorem bind_assoc {γ : Type} (d : Dialogue ι ρ α) (f : α → Dialogue ι ρ β)
    (g : β → Dialogue ι ρ γ) : (d.bind f).bind g = d.bind fun a => (f a).bind g := by
  induction d with
  | done a => rfl
  | ask q next ih => exact congrArg (ask q) (funext ih)

/-- To end with the result adds nothing. -/
theorem bind_done (d : Dialogue ι ρ α) : d.bind done = d := by
  induction d with
  | done a => rfl
  | ask q next ih => exact congrArg (ask q) (funext ih)

/-- To go on with the result is to go on over other questions, too. -/
theorem lower_bind {κ : Type} {τ : κ → Type} (answer : (q : ι) → Dialogue κ τ (ρ q))
    (d : Dialogue ι ρ α) (f : α → Dialogue ι ρ β) :
    (d.bind f).lower answer = (d.lower answer).bind fun a => (f a).lower answer := by
  induction d with
  | done a => rfl
  | ask q next ih =>
    change ((answer q).bind fun r => ((next r).bind f).lower answer) =
      ((answer q).bind fun r => (next r).lower answer).bind _
    rw [bind_assoc]
    exact congrArg (answer q).bind (funext ih)

/-! ## What is left after a log -/

/-- Before anything is asked, everything is left. -/
@[simp] theorem after_nil {d rest : Dialogue ι ρ α} : After d [] rest ↔ rest = d := by
  constructor
  · rintro ⟨⟩
    rfl
  · rintro rfl
    exact .nil

/-- What is over is left over, and has no log. -/
@[simp] theorem after_done {a : α} {log : List (Sigma ρ)} {rest : Dialogue ι ρ α} :
    After (done a) log rest ↔ log = [] ∧ rest = done a := by
  constructor
  · rintro ⟨⟩
    exact ⟨rfl, rfl⟩
  · rintro ⟨rfl, rfl⟩
    exact .nil

/-- Behind an answer, what is left is left of the dialogue that goes on with
it. -/
@[simp] theorem after_ask_cons {q : ι} {next : ρ q → Dialogue ι ρ α} {e : Sigma ρ}
    {log : List (Sigma ρ)} {rest : Dialogue ι ρ α} :
    After (ask q next) (e :: log) rest ↔ ∃ r, e = ⟨q, r⟩ ∧ After (next r) log rest := by
  constructor
  · rintro (_ | h)
    exact ⟨_, rfl, h⟩
  · rintro ⟨r, rfl, h⟩
    exact .cons h

/-- A log passes part by part. -/
theorem after_append {d rest : Dialogue ι ρ α} {l₁ l₂ : List (Sigma ρ)} :
    After d (l₁ ++ l₂) rest ↔ ∃ mid, After d l₁ mid ∧ After mid l₂ rest := by
  induction l₁ generalizing d with
  | nil => simp
  | cons e l₁ ih =>
    cases d with
    | done a => simp
    | ask q next =>
      simp only [List.cons_append, after_ask_cons, ih]
      constructor
      · rintro ⟨r, he, mid, h₁, h₂⟩
        exact ⟨mid, ⟨r, he, h₁⟩, h₂⟩
      · rintro ⟨mid, ⟨r, he, h₁⟩, h₂⟩
        exact ⟨r, he, mid, h₁, h₂⟩

/-- Work on the result asks nothing, so it waits until the end. -/
theorem after_bind_done {d : Dialogue ι ρ α} {f : α → β} {log : List (Sigma ρ)}
    {rest : Dialogue ι ρ β} :
    After (d.bind fun a => done (f a)) log rest ↔
      ∃ mid, After d log mid ∧ rest = mid.bind fun a => done (f a) := by
  induction log generalizing d with
  | nil => simp
  | cons e log ih =>
    cases d with
    | done a => simp
    | ask q next =>
      simp only [ask_bind, after_ask_cons, ih]
      constructor
      · rintro ⟨r, he, mid, h₁, h₂⟩
        exact ⟨mid, ⟨r, he, h₁⟩, h₂⟩
      · rintro ⟨mid, ⟨r, he, h₁⟩, h₂⟩
        exact ⟨r, he, mid, h₁, h₂⟩

/-! ## How a dialogue ends -/

/-- What is over gives its result at once. -/
@[simp] theorem gives_done {a b : α} {log : List (Sigma ρ)} :
    Gives (done a) log b ↔ log = [] ∧ b = a := by
  simp [Gives]

/-- A question gives what the dialogue that goes on with its answer gives. -/
@[simp] theorem gives_ask {q : ι} {next : ρ q → Dialogue ι ρ α} {log : List (Sigma ρ)} {a : α} :
    Gives (ask q next) log a ↔ ∃ r log', log = ⟨q, r⟩ :: log' ∧ Gives (next r) log' a := by
  constructor
  · rintro (_ | h)
    exact ⟨_, _, rfl, h⟩
  · rintro ⟨r, log', rfl, h⟩
    exact .cons h

/-- One question, and the end. -/
theorem gives_ask_done {q : ι} {f : ρ q → α} {log : List (Sigma ρ)} {a : α} :
    Gives (ask q fun r => done (f r)) log a ↔ ∃ r, log = [⟨q, r⟩] ∧ a = f r := by
  simp only [gives_ask, gives_done]
  constructor
  · rintro ⟨r, _, rfl, rfl, rfl⟩
    exact ⟨r, rfl, rfl⟩
  · rintro ⟨r, rfl, rfl⟩
    exact ⟨r, [], rfl, rfl, rfl⟩

/-- **A log of two dialogues in turn is a log of each.** -/
theorem gives_bind {d : Dialogue ι ρ α} {f : α → Dialogue ι ρ β} {log : List (Sigma ρ)} {b : β} :
    Gives (d.bind f) log b ↔
      ∃ a l₁ l₂, log = l₁ ++ l₂ ∧ Gives d l₁ a ∧ Gives (f a) l₂ b := by
  induction d generalizing log with
  | done a =>
    simp only [done_bind, gives_done]
    constructor
    · intro h
      exact ⟨a, [], log, rfl, ⟨rfl, rfl⟩, h⟩
    · rintro ⟨_, _, l₂, rfl, ⟨rfl, rfl⟩, h⟩
      exact h
  | ask q next ih =>
    simp only [ask_bind, gives_ask, ih]
    constructor
    · rintro ⟨r, log', rfl, a, l₁, l₂, rfl, h₁, h₂⟩
      exact ⟨a, ⟨q, r⟩ :: l₁, l₂, rfl, ⟨r, l₁, rfl, h₁⟩, h₂⟩
    · rintro ⟨a, _, l₂, rfl, ⟨r, l₁, rfl, h₁⟩, h₂⟩
      exact ⟨r, l₁ ++ l₂, rfl, a, l₁, l₂, rfl, h₁, h₂⟩

/-- Work on the result asks for nothing. -/
theorem gives_bind_done {d : Dialogue ι ρ α} {f : α → β} {log : List (Sigma ρ)} {b : β} :
    Gives (d.bind fun a => done (f a)) log b ↔ ∃ a, Gives d log a ∧ b = f a := by
  rw [gives_bind]
  constructor
  · rintro ⟨a, l₁, l₂, rfl, h, hend⟩
    obtain ⟨rfl, rfl⟩ := gives_done.1 hend
    exact ⟨a, by rwa [List.append_nil], rfl⟩
  · rintro ⟨a, h, rfl⟩
    exact ⟨a, log, [], (List.append_nil log).symm, h, .nil⟩

/-! ## A log replayed -/

section Replay

variable [DecidableEq ι]

/-- What a dialogue ends with if it is given the answers of a log, and asks
for just these. -/
def replay : Dialogue ι ρ α → List (Sigma ρ) → Option α
  | done a, [] => some a
  | ask q next, ⟨q', r⟩ :: log => if h : q' = q then (next (h ▸ r)).replay log else none
  | _, _ => none

/-- A dialogue gives a result over a log exactly if it comes to it when it is
replayed. -/
theorem gives_iff_replay {d : Dialogue ι ρ α} {log : List (Sigma ρ)} {a : α} :
    Gives d log a ↔ d.replay log = some a := by
  induction d generalizing log with
  | done b =>
    cases log with
    | nil => simp [replay, eq_comm]
    | cons e log => simp [replay]
  | ask q next ih =>
    cases log with
    | nil => simp [replay]
    | cons e log =>
      obtain ⟨q', r⟩ := e
      simp only [gives_ask, replay]
      constructor
      · rintro ⟨r', log', heq, h⟩
        cases heq
        exact (dif_pos rfl).trans ((ih r').1 h)
      · intro h
        by_cases hq : q' = q
        · subst hq
          exact ⟨r, log, rfl, (ih r).2 ((dif_pos rfl).symm.trans h)⟩
        · rw [dif_neg hq] at h
          cases h

instance [DecidableEq α] (d : Dialogue ι ρ α) (log : List (Sigma ρ)) (a : α) :
    Decidable (Gives d log a) :=
  decidable_of_iff _ gives_iff_replay.symm

end Replay

/-! ## Whoever answers -/

section Passes

variable {σ ε : Type} {step : σ → ε → σ → Prop}

/-- A log that is answered step by step, from one state to another. -/
inductive Passes (step : σ → ε → σ → Prop) : σ → List ε → σ → Prop
  | nil {s : σ} : Passes step s [] s
  | cons {s mid s' : σ} {e : ε} {log : List ε} :
      step s e mid → Passes step mid log s' → Passes step s (e :: log) s'

/-- Without a step one stays where one is. -/
@[simp] theorem passes_nil {s s' : σ} : Passes step s [] s' ↔ s' = s := by
  constructor
  · rintro ⟨⟩
    rfl
  · rintro rfl
    exact .nil

/-- The first of some steps is taken first. -/
@[simp] theorem passes_cons {s s' : σ} {e : ε} {log : List ε} :
    Passes step s (e :: log) s' ↔ ∃ mid, step s e mid ∧ Passes step mid log s' := by
  constructor
  · rintro (_ | ⟨h₁, h₂⟩)
    exact ⟨_, h₁, h₂⟩
  · rintro ⟨mid, h₁, h₂⟩
    exact .cons h₁ h₂

/-- Steps behind others go on from where those lead. -/
theorem passes_append {s s' : σ} {l₁ l₂ : List ε} :
    Passes step s (l₁ ++ l₂) s' ↔ ∃ mid, Passes step s l₁ mid ∧ Passes step mid l₂ s' := by
  induction l₁ generalizing s with
  | nil => simp
  | cons e l₁ ih =>
    simp only [List.cons_append, passes_cons, ih]
    constructor
    · rintro ⟨s₁, h₁, s₂, h₂, h₃⟩
      exact ⟨s₂, ⟨s₁, h₁, h₂⟩, h₃⟩
    · rintro ⟨s₂, ⟨s₁, h₁, h₂⟩, h₃⟩
      exact ⟨s₁, h₁, s₂, h₂, h₃⟩

/-- Steps that are allowed by a rule are allowed by a more lenient one. -/
theorem Passes.mono {step' : σ → ε → σ → Prop} (hstep : ∀ s e s', step s e s' → step' s e s')
    {s s' : σ} {log : List ε} (h : Passes step s log s') : Passes step' s log s' := by
  induction h with
  | nil => exact .nil
  | cons h₁ _ ih => exact .cons (hstep _ _ _ h₁) ih

/-- **What every step keeps holds after a run**, and what every step shows
holds of every entry. -/
theorem Passes.invariant {I : σ → Prop} {Q : ε → Prop}
    (hstep : ∀ s e s', I s → step s e s' → I s' ∧ Q e) {s s' : σ} {log : List ε}
    (h : Passes step s log s') (hs : I s) : I s' ∧ ∀ e ∈ log, Q e := by
  induction h with
  | nil => exact ⟨hs, by simp⟩
  | cons h₁ _ ih =>
    obtain ⟨hmid, hshown⟩ := hstep _ _ _ hs h₁
    obtain ⟨hend, hrest⟩ := ih hmid
    exact ⟨hend, List.forall_mem_cons.2 ⟨hshown, hrest⟩⟩

end Passes

/-! ## The log of a run -/

section Transcript

variable {σ : Type} {answer : (q : ι) → σ → ρ q × σ}

/-- The log of a dialogue that is run. -/
def transcript (answer : (q : ι) → σ → ρ q × σ) : Dialogue ι ρ α → σ → List (Sigma ρ)
  | done _, _ => []
  | ask q next, s =>
    ⟨q, (answer q s).1⟩ :: (next (answer q s).1).transcript answer (answer q s).2

/-- An entry that is answered just so, and the state after it. -/
def AnsweredBy (answer : (q : ι) → σ → ρ q × σ) (s : σ) (e : Sigma ρ) (s' : σ) : Prop :=
  answer e.1 s = (e.2, s')

/-- A dialogue gives over its transcript what comes of its run. -/
theorem gives_transcript (d : Dialogue ι ρ α) (s : σ) :
    Gives d (d.transcript answer s) (d.runWith answer s).1 := by
  induction d generalizing s with
  | done a => exact .nil
  | ask q next ih => exact .cons (ih (answer q s).1 (answer q s).2)

/-- Whoever answers ends up where the transcript leads. -/
theorem passes_transcript (d : Dialogue ι ρ α) (s : σ) :
    Passes (AnsweredBy answer) s (d.transcript answer s) (d.runWith answer s).2 := by
  induction d generalizing s with
  | done a => exact .nil
  | ask q next ih => exact .cons rfl (ih (answer q s).1 (answer q s).2)

/-- **To run a dialogue is to answer a log of it.** -/
theorem gives_runWith {σ : Type} {step : σ → Sigma ρ → σ → Prop}
    {answer : (q : ι) → σ → ρ q × σ}
    (hanswer : ∀ q s, step s ⟨q, (answer q s).1⟩ (answer q s).2) (d : Dialogue ι ρ α) (s : σ) :
    ∃ log, Gives d log (d.runWith answer s).1 ∧ Passes step s log (d.runWith answer s).2 := by
  refine ⟨d.transcript answer s, gives_transcript d s, (passes_transcript d s).mono ?_⟩
  rintro s ⟨q, r⟩ s' h
  have hq : answer q s = (r, s') := h
  have hstep := hanswer q s
  rwa [hq] at hstep

/-- **There is one log that is answered just so**: that of the run. -/
theorem transcript_of_gives {d : Dialogue ι ρ α} {log : List (Sigma ρ)} {a : α} {s s' : σ}
    (h : Gives d log a) (hpasses : Passes (AnsweredBy answer) s log s') :
    d.transcript answer s = log ∧ d.runWith answer s = (a, s') := by
  induction d generalizing log s with
  | done b =>
    obtain ⟨rfl, rfl⟩ := gives_done.1 h
    obtain rfl := passes_nil.1 hpasses
    exact ⟨rfl, rfl⟩
  | ask q next ih =>
    obtain ⟨r, log, rfl, hnext⟩ := gives_ask.1 h
    obtain ⟨mid, hanswer, hrest⟩ := passes_cons.1 hpasses
    have hq : answer q s = (r, mid) := hanswer
    obtain ⟨htranscript, hrun⟩ := ih r hnext hrest
    simp only [transcript, runWith, hq, htranscript, hrun, and_self]

end Transcript

end Dialogue

end TrafficGate
