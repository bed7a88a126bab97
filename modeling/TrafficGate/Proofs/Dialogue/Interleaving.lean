import TrafficGate.Proofs.Dialogue.Log
import Mathlib.Data.List.Dedup
import Mathlib.Logic.Function.Basic
/-!
# Dialogues side by side

Several dialogues that ask the same party, in any order. A common log says
which dialogue asked each question; the log of one of them is its `share`.
`Interleaves` says no more than that every share is a log of its dialogue,
so every order of questions is allowed, and a log may stop anywhere.

Beside it stands the run in turn (`inTurn`), where each dialogue is over
before the next one begins. `lastSteps` is the order in which the
dialogues of a common log made their last steps.
-/

namespace TrafficGate

namespace Dialogue

variable {ι κ ε σ : Type} {ρ : ι → Type} {α β : Type} [DecidableEq κ]

/-! ## Shares -/

/-- What one of many contributed to a common log. -/
def share (i : κ) (t : List (κ × ε)) : List ε :=
  t.filterMap fun e => if e.1 = i then some e.2 else none

variable {i j : κ} {e : ε} {t t₁ t₂ : List (κ × ε)}

@[simp] theorem share_nil : share i ([] : List (κ × ε)) = [] := rfl

@[simp] theorem share_append : share i (t₁ ++ t₂) = share i t₁ ++ share i t₂ :=
  List.filterMap_append

@[simp] theorem share_cons_self : share i ((i, e) :: t) = e :: share i t := by simp [share]

@[simp] theorem share_cons_of_ne (h : j ≠ i) : share i ((j, e) :: t) = share i t := by
  simp [share, h]

theorem mem_share : e ∈ share i t ↔ (i, e) ∈ t := by
  simp [share]

/-- A share of one step is a step of the log, and the only one of its kind. -/
theorem exists_of_share_eq_singleton (h : share i t = [e]) :
    ∃ t₁ t₂, t = t₁ ++ (i, e) :: t₂ ∧ share i t₁ = [] ∧ share i t₂ = [] := by
  have hmem : (i, e) ∈ t := mem_share.1 (by simp [h])
  obtain ⟨t₁, t₂, rfl⟩ := List.append_of_mem hmem
  rw [share_append, share_cons_self, List.append_eq_singleton_iff] at h
  rcases h with ⟨h₁, h₂⟩ | ⟨-, h₂⟩
  · exact ⟨t₁, t₂, rfl, h₁, (List.cons.inj h₂).2⟩
  · cases h₂

/-- A participant without a share had no part. -/
theorem share_eq_nil_iff : share i t = [] ↔ i ∉ t.map Prod.fst := by
  simp only [List.eq_nil_iff_forall_not_mem, mem_share, List.mem_map, not_exists, not_and]
  constructor
  · rintro h ⟨_, e⟩ hmem rfl
    exact h e hmem
  · intro h e hmem
    exact h (i, e) hmem rfl

/-! ## Interleavings -/

/-- Every dialogue has had its share of the log, and this is left of it. -/
def Interleaves (d : κ → Dialogue ι ρ α) (t : List (κ × Sigma ρ))
    (left : κ → Dialogue ι ρ α) : Prop :=
  ∀ i, After (d i) (share i t) (left i)

variable {d left : κ → Dialogue ι ρ α}

/-- **Whatever holds of every interleaving holds on the way**: a beginning
of one is one. -/
theorem Interleaves.of_append {t₁ t₂ : List (κ × Sigma ρ)} (h : Interleaves d (t₁ ++ t₂) left) :
    ∃ mid, Interleaves d t₁ mid := by
  have hmid : ∀ i, ∃ mid, After (d i) (share i t₁) mid := by
    intro i
    have hi := h i
    rw [share_append, after_append] at hi
    obtain ⟨mid, hmid, -⟩ := hi
    exact ⟨mid, hmid⟩
  exact ⟨fun i => (hmid i).choose, fun i => (hmid i).choose_spec⟩

/-- The last step is a step of one dialogue, and the others stand where
they stood. -/
theorem Interleaves.of_concat {t : List (κ × Sigma ρ)} {e : Sigma ρ}
    (h : Interleaves d (t ++ [(i, e)]) left) :
    ∃ mid, Interleaves d t (Function.update left i mid) ∧ After mid [e] (left i) := by
  have hi := h i
  rw [share_append, share_cons_self, share_nil, after_append] at hi
  obtain ⟨mid, hmid, hstep⟩ := hi
  refine ⟨mid, fun j => ?_, hstep⟩
  by_cases hj : j = i
  · obtain rfl := hj
    simpa using hmid
  · -- anyone else has the same share with the last step and without it
    have hstays := h j
    rw [share_append, share_cons_of_ne (Ne.symm hj), share_nil, List.append_nil] at hstays
    simpa [hj] using hstays

/-! ## In turn -/

/-- Runs dialogues one after another: what comes of each, and the state at
the end. -/
def inTurn (answer : (q : ι) → σ → ρ q × σ) (d : κ → Dialogue ι ρ α) :
    List κ → σ → List (κ × α) × σ
  | [], s => ([], s)
  | i :: is, s =>
    let first := (d i).runWith answer s
    let others := inTurn answer d is first.2
    ((i, first.1) :: others.1, others.2)

variable {answer : (q : ι) → σ → ρ q × σ} {s : σ}

omit [DecidableEq κ] in
/-- Everyone has a turn. -/
@[simp] theorem map_fst_inTurn (is : List κ) : (inTurn answer d is s).1.map Prod.fst = is := by
  induction is generalizing s with
  | nil => rfl
  | cons i is ih => simp only [inTurn, List.map_cons, ih]

omit [DecidableEq κ] in
/-- Those who come in turn go on where the ones before them left off. -/
theorem inTurn_append (is js : List κ) :
    inTurn answer d (is ++ js) s =
      ((inTurn answer d is s).1 ++ (inTurn answer d js (inTurn answer d is s).2).1,
        (inTurn answer d js (inTurn answer d is s).2).2) := by
  induction is generalizing s with
  | nil => rfl
  | cons i is ih => simp only [List.cons_append, inTurn, ih]

omit [DecidableEq κ] in
@[simp] theorem inTurn_singleton (i : κ) :
    inTurn answer d [i] s = ([(i, ((d i).runWith answer s).1)], ((d i).runWith answer s).2) := rfl

/-- Work on the results asks nothing. -/
theorem runWith_bind_done (d : Dialogue ι ρ α) (f : α → β) :
    (d.bind fun a => done (f a)).runWith answer s =
      (f (d.runWith answer s).1, (d.runWith answer s).2) := by
  induction d generalizing s with
  | done a => rfl
  | ask q next ih => simp only [ask_bind, runWith, ih]

omit [DecidableEq κ] in
/-- What is made of each result does not change how they are come by. -/
theorem inTurn_bind_done {d' : κ → Dialogue ι ρ β} {f : κ → α → β} {is : List κ}
    (h : ∀ i ∈ is, d' i = (d i).bind fun a => done (f i a)) :
    inTurn answer d' is s =
      ((inTurn answer d is s).1.map fun r => (r.1, f r.1 r.2), (inTurn answer d is s).2) := by
  induction is generalizing s with
  | nil => rfl
  | cons i is ih =>
    simp only [inTurn, List.map_cons, h i (List.mem_cons_self ..), runWith_bind_done,
      ih fun j hj => h j (List.mem_cons_of_mem _ hj)]

/-! ## The order of last steps -/

/-- Whether a dialogue that may fail is over, and did not fail. -/
def succeeded {δ : Type} : Dialogue ι ρ (Except δ α) → Bool
  | done (.ok _) => true
  | done (.error _) => false
  | ask _ _ => false

/-- A dialogue that has succeeded is over, with a result. -/
theorem exists_of_succeeded {δ : Type} {d : Dialogue ι ρ (Except δ α)}
    (h : d.succeeded = true) : ∃ a, d = done (.ok a) := by
  cases d with
  | ask q next => cases h
  | done r =>
    cases r with
    | error e => cases h
    | ok a => exact ⟨a, rfl⟩

/-- Who made a step, in the order of their last ones. -/
def lastSteps (t : List (κ × ε)) : List κ := (t.map Prod.fst).dedup

/-- Whoever comes again moves to the end. -/
theorem dedup_concat (is : List κ) (i : κ) :
    (is ++ [i]).dedup = is.dedup.filter (· ≠ i) ++ [i] := by
  induction is with
  | nil => rfl
  | cons j is ih =>
    by_cases hj : j = i
    · obtain rfl := hj
      rw [List.cons_append, List.dedup_cons_of_mem (by simp), ih]
      -- only the last occurrence counts, so it makes no difference whether `j` came before
      by_cases hmem : j ∈ is
      · rw [List.dedup_cons_of_mem hmem]
      · rw [List.dedup_cons_of_notMem hmem]
        simp
    · by_cases hmem : j ∈ is
      · rw [List.cons_append, List.dedup_cons_of_mem (by simp [hmem]), ih,
          List.dedup_cons_of_mem hmem]
      · rw [List.cons_append, List.dedup_cons_of_notMem (by simp [hmem, hj]), ih,
          List.dedup_cons_of_notMem hmem]
        simp [hj]

/-- **One more step moves its dialogue to the end**, where it stands if it
is among those that are asked about. -/
theorem filter_lastSteps_concat {among among' : κ → Bool} (hi : among i = false)
    (hstay : ∀ j, j ≠ i → among' j = among j) :
    (lastSteps (t ++ [(i, e)])).filter among' =
      (lastSteps t).filter among ++ if among' i then [i] else [] := by
  rw [lastSteps, List.map_append, List.map_singleton, dedup_concat, List.filter_append,
    List.filter_filter, ← lastSteps]
  congr 1
  · refine List.filter_congr fun j _ => ?_
    by_cases hj : j = i
    · simp [hj, hi]
    · simp [hj, hstay j hj]
  · simp [List.filter_singleton]

end Dialogue

end TrafficGate
