/-!
# Dialogues

A computation that asks questions and goes on with the answers: either
it is done, or it asks and says how each possible answer continues. The
operations of this library are dialogues, so that what they do is one
value and who answers (a server in memory, a list of recorded answers, a
network) is chosen afterwards, by `run`.
-/

namespace TrafficGate

/-- A computation over questions `ι`, each with its type of answers. -/
inductive Dialogue (ι : Type) (ρ : ι → Type) (α : Type) where
  | done (a : α)
  | ask (q : ι) (next : ρ q → Dialogue ι ρ α)

namespace Dialogue

variable {ι : Type} {ρ : ι → Type} {α β σ : Type}

/-- Goes on with the result. -/
def bind : Dialogue ι ρ α → (α → Dialogue ι ρ β) → Dialogue ι ρ β
  | done a, f => f a
  | ask q next, f => ask q fun r => (next r).bind f

instance : Monad (Dialogue ι ρ) where
  pure := done
  bind := bind

/-- The dialogue of one question. -/
def question (q : ι) : Dialogue ι ρ (ρ q) := ask q done

/-- Answers every question in a monad. -/
def run {m : Type → Type} [Monad m] (answer : (q : ι) → m (ρ q)) : Dialogue ι ρ α → m α
  | done a => pure a
  | ask q next => do
    let r ← answer q
    (next r).run answer

/-- Answers every question from a state that the answers change. -/
def runWith (answer : (q : ι) → σ → ρ q × σ) : Dialogue ι ρ α → σ → α × σ
  | done a, s => (a, s)
  | ask q next, s => (next (answer q s).1).runWith answer (answer q s).2

/-- Replaces every question by a dialogue over other questions. -/
def lower {κ : Type} {τ : κ → Type} (answer : (q : ι) → Dialogue κ τ (ρ q)) :
    Dialogue ι ρ α → Dialogue κ τ α
  | done a => done a
  | ask q next => (answer q).bind fun r => (next r).lower answer

end Dialogue

end TrafficGate
