import Mathlib.Data.ENat.Lattice
import TrafficGate.Proofs.Client.Repetition
import TrafficGate.Proofs.Client.Sample
/-!
# How often a request is sent

A request is sent until an answer stands that does not ask for patience, or
until no repetition is left. The logs of that are known in advance: they are
`patiently`, one round for each answer that asked for patience, and then the
answer that stood (`gives_sendFrom_of_busy`). Laid against a server that
answers with whatever it likes, a log has as many rounds as there are busy
answers at the beginning (`busyFor`), but no more than are allowed.
-/

namespace TrafficGate

open Dialogue (Gives Passes AnsweredBy)

namespace Http

/-! ## Requests and pauses -/

/-- What a client does that others can see. -/
inductive Act where
  | send (r : Request)
  | wait (milliseconds : Nat)
  deriving DecidableEq, Repr, Inhabited

/-- What an entry of a log does, if it is seen. -/
def act? : Sigma Answer → Option Act
  | ⟨.exchange r, _⟩ => some (.send r)
  | ⟨.pause milliseconds, _⟩ => some (.wait milliseconds)
  | ⟨.count _, _⟩ => none

/-- The requests and the pauses of a log, in order. -/
def acts (log : Log) : List Act := log.filterMap act?

@[simp] theorem acts_append (l₁ l₂ : Log) : acts (l₁ ++ l₂) = acts l₁ ++ acts l₂ :=
  List.filterMap_append

/-! ## Busy answers -/

/-- An answer that asks for patience: a response came back with one of five
statuses. A request that got no response is not among them. -/
def Busy (x : Exchange) : Prop :=
  ∃ status, status? x = some status ∧ status.code ∈ [429, 500, 502, 503, 504]

variable {answers : Stream' Exchange} {n : ℕ}

/-- How many answers at the beginning are busy: the place of the first one
that is not, and infinitely many if there is none. -/
noncomputable def busyFor (answers : Stream' Exchange) : ℕ∞ :=
  ⨅ i ∈ {i : ℕ | ¬ Busy (answers.get i)}, (i : ℕ∞)

/-- Answers are busy for a while if each of them is. -/
theorem le_busyFor_iff : (n : ℕ∞) ≤ busyFor answers ↔ ∀ i < n, Busy (answers.get i) := by
  rw [busyFor, le_iInf₂_iff]
  constructor
  · intro h i hi
    by_contra hbusy
    have hle : n ≤ i := Nat.cast_le.1 (h i hbusy)
    omega
  · intro h i hi
    have hle : n ≤ i := by
      by_contra hlt
      exact hi (h i (by omega))
    exact Nat.cast_le.2 hle

/-- The answer at that place is not busy. -/
theorem not_busy_of_busyFor (h : busyFor answers = n) : ¬ Busy (answers.get n) := by
  intro hbusy
  have hbefore : ∀ i < n, Busy (answers.get i) := le_busyFor_iff.1 h.ge
  have hle : ((n + 1 : ℕ) : ℕ∞) ≤ busyFor answers := by
    refine le_busyFor_iff.2 fun i hi => ?_
    rcases Nat.lt_succ_iff_lt_or_eq.1 hi with hlt | rfl
    · exact hbefore i hlt
    · exact hbusy
  rw [h, Nat.cast_le] at hle
  omega

end Http

namespace Client

open Http (Act acts Busy busyFor exchanges play)

variable {r : Request} {x : Exchange} {base retries allowed : Nat} {earlier : List Exchange}

/-- **A request is sent again after a busy answer**, unless it creates
something. -/
theorem asksAgain_iff : asksAgain r x = true ↔ r.method ≠ .post ∧ Busy x := by
  rw [asksAgain, Bool.and_eq_true, Option.any_eq_true, Busy]
  refine and_congr (by simp [mayRepeat]) (exists_congr fun status => and_congr_right fun _ => ?_)
  simp [Status.isRetriable]

/-- An answer is not final if the server is busy and the request may be
repeated. -/
theorem not_final_iff : ¬ Final r x ↔ r.method ≠ .post ∧ Busy x := by
  rw [← asksAgain_iff, Final, Bool.not_eq_false]

/-! ## The log of a request -/

/-- The rounds of a request before the answer that stood: it is sent, the
repetition is counted, and the client waits. -/
def patiently (base : Nat) (r : Request) (retries : Nat) : List Exchange → Http.Log
  | [] => []
  | y :: earlier =>
    sentOnce r y ++ ⟨.count Metric.requestRetry.sample, ()⟩ ::
      ⟨.pause (backoff base retries), ()⟩ :: patiently base r (retries + 1) earlier

/-- **The logs of a request.** Every answer before the last one asked for
patience, and the last one stands for itself or because no repetition is
left. -/
theorem gives_sendFrom_of_busy (hlength : earlier.length ≤ allowed)
    (hearlier : ∀ y ∈ earlier, ¬ Final r y) (hlast : earlier.length = allowed ∨ Final r x) :
    Gives (sendFrom base r retries allowed) (patiently base r retries earlier ++ sentOnce r x)
      x := by
  induction earlier generalizing retries allowed with
  | nil =>
    cases allowed with
    | zero => exact gives_sendFrom_zero.2 rfl
    | succ allowed =>
      have hfinal : Final r x := hlast.resolve_left (Nat.succ_ne_zero allowed).symm
      exact gives_sendFrom_succ.2 (.inl ⟨hfinal, rfl⟩)
  | cons y earlier ih =>
    obtain ⟨allowed, rfl⟩ : ∃ n, allowed = n + 1 :=
      Nat.exists_eq_succ_of_ne_zero (by rw [List.length_cons] at hlength; omega)
    obtain ⟨hy, hearlier⟩ := List.forall_mem_cons.1 hearlier
    rw [List.length_cons] at hlength hlast
    have hnext : Gives (sendFrom base r (retries + 1) allowed)
        (patiently base r (retries + 1) earlier ++ sentOnce r x) x :=
      ih (by omega) hearlier (hlast.imp (by omega) id)
    refine gives_sendFrom_succ.2 (.inr ⟨y, _, hy, hnext, ?_⟩)
    rw [patiently, List.append_assoc, List.cons_append, List.cons_append]

/-- Each of the earlier answers is one more exchange of the request. -/
theorem exchanges_patiently :
    exchanges (patiently base r retries earlier) = earlier.map (Prod.mk r) := by
  induction earlier generalizing retries with
  | nil => rfl
  | cons y earlier ih =>
    have hround : exchanges (patiently base r retries (y :: earlier)) =
        (r, y) :: exchanges (patiently base r (retries + 1) earlier) := by
      rw [patiently, Http.exchanges_append, exchanges_sentOnce]
      rfl
    rw [hround, ih, List.map_cons]

theorem acts_sentOnce (r : Request) (x : Exchange) : acts (sentOnce r x) = [.send r] := by
  unfold sentOnce measured
  cases Http.status? x with
  | none => rfl
  | some status => rfl

/-- **The client waits after every round**, for the first pause after the
first one. -/
theorem acts_patiently :
    acts (patiently base r retries earlier) =
      (List.range earlier.length).flatMap fun i =>
        [.send r, .wait (backoff base (retries + i))] := by
  induction earlier generalizing retries with
  | nil => rfl
  | cons y earlier ih =>
    have hround : acts (patiently base r retries (y :: earlier)) =
        .send r :: .wait (backoff base retries) ::
          acts (patiently base r (retries + 1) earlier) := by
      rw [patiently, Http.acts_append, acts_sentOnce]
      rfl
    -- the rounds that follow are counted from the next one
    have hnext : ∀ i, retries + 1 + i = retries + (i + 1) := fun i => by omega
    rw [hround, ih, List.length_cons, List.range_succ_eq_map, List.flatMap_cons,
      List.flatMap_map]
    simp only [hnext]
    rfl

/-! ## Against a server -/

/-- **How often a request is repeated**: while the answers are busy, but no
more often than is allowed, and never if it creates something. -/
theorem exists_repetitions (r : Request) (answers : Stream' Exchange) (allowed : Nat) :
    ∃ n : ℕ, (n : ℕ∞) = (if r.method = .post then 0 else min (busyFor answers) allowed) ∧
      n ≤ allowed ∧ (∀ y ∈ answers.take n, ¬ Final r y) ∧
      (n = allowed ∨ Final r (answers.get n)) := by
  by_cases hpost : r.method = .post
  · have hfinal : Final r (answers.get 0) := by
      by_contra h
      exact (not_final_iff.1 h).1 hpost
    exact ⟨0, by rw [if_pos hpost]; rfl, Nat.zero_le allowed, by simp, .inr hfinal⟩
  rw [if_neg hpost]
  obtain ⟨n, hn⟩ : ∃ n : ℕ, (n : ℕ∞) = min (busyFor answers) allowed := by
    refine ENat.ne_top_iff_exists.1 ?_
    exact ne_top_of_le_ne_top (ENat.natCast_ne_top allowed) (min_le_right _ _)
  have hallowed : n ≤ allowed := Nat.cast_le.1 (hn.trans_le (min_le_right _ _))
  have hbusy : ∀ i < n, Busy (answers.get i) :=
    Http.le_busyFor_iff.1 (hn.trans_le (min_le_left _ _))
  refine ⟨n, hn, hallowed, ?_, ?_⟩
  · intro y hy
    obtain ⟨i, hi, rfl⟩ := List.mem_iff_getElem.1 hy
    rw [Stream'.length_take] at hi
    rw [Stream'.take_get]
    exact not_final_iff.2 ⟨hpost, hbusy i hi⟩
  · -- the lesser of the two is what ends it
    rcases min_choice (busyFor answers) (allowed : ℕ∞) with hmin | hmin
    · refine .inr ?_
      by_contra h
      exact Http.not_busy_of_busyFor (hmin.symm.trans hn.symm) (not_final_iff.1 h).2
    · exact .inl (Nat.cast_inj.1 (hn.trans hmin))

section Course

variable {answers : Stream' Exchange} {n : ℕ}

/-- The log of a request that is repeated so many times. -/
def course (base : Nat) (r : Request) (answers : Stream' Exchange) (n : ℕ) : Http.Log :=
  patiently base r 0 (answers.take n) ++ sentOnce r (answers.get n)

/-- The exchanges of a course are the request, with one answer after the
other. -/
theorem exchanges_course :
    exchanges (course base r answers n) = (answers.take (n + 1)).map (Prod.mk r) := by
  rw [course, Http.exchanges_append, exchanges_patiently, exchanges_sentOnce,
    Stream'.take_succ', List.map_append]
  rfl

/-- A course takes turns in requests and pauses. -/
theorem acts_course :
    acts (course base r answers n) =
      ((List.range n).flatMap fun i => [.send r, .wait (backoff base i)]) ++ [.send r] := by
  rw [course, Http.acts_append, acts_patiently, acts_sentOnce, Stream'.length_take]
  simp only [Nat.zero_add]

/-- It takes as many answers as requests are sent. -/
theorem passes_course :
    Passes (AnsweredBy play) answers (course base r answers n) (answers.drop (n + 1)) := by
  have hanswers : (exchanges (course base r answers n)).map Prod.snd = answers.take (n + 1) := by
    rw [exchanges_course, List.map_map]
    exact List.map_id _
  rw [Http.passes_play, hanswers]
  exact (Stream'.append_take_drop (n + 1) answers).symm

end Course

/-- **A request is sent while the server is busy.** The server answers with
whatever it likes. A request that cannot be written down is given up at
once. Any other one is sent once more than it is repeated; it is repeated
as often as there are busy answers at the beginning, but not more often than
is allowed, and never if it creates something. Each time it is the same
request and gets the next answer. Before each repetition the client waits,
for the first pause before the first one and so on. What comes of it all is
the last answer, whether a response or a fault, and the answers behind it
are left untouched. -/
theorem sent_while_busy (client : Client) (r : Request) (answers : Stream' Exchange) :
    let session := client.send r
    let log := session.transcript play answers
    (∀ fault, unsendable? r = some fault →
      log = [] ∧ session.runWith play answers = (.error fault, answers)) ∧
    (unsendable? r = none → ∃ n : ℕ,
      (n : ℕ∞) = (if r.method = .post then 0 else min (busyFor answers) client.maxRetries) ∧
      exchanges log = (answers.take (n + 1)).map (Prod.mk r) ∧
      acts log = ((List.range n).flatMap fun i =>
        [.send r, .wait (backoff client.baseDelay i)]) ++ [.send r] ∧
      session.runWith play answers = (answers.get n, answers.drop (n + 1))) := by
  intro session log
  constructor
  · intro fault hfault
    have hsession : session = .done (.error fault) := by
      simp only [session, send, hfault, Dialogue.pure_eq_done]
    simp only [log, hsession]
    exact ⟨rfl, rfl⟩
  intro hsendable
  have hsession : session = sendFrom client.baseDelay r 0 client.maxRetries := by
    simp only [session, send, hsendable]
  obtain ⟨n, hn, hallowed, hbusy, hlast⟩ := exists_repetitions r answers client.maxRetries
  have hlength : (answers.take n).length = n := Stream'.length_take n answers
  have hgives : Gives session (course client.baseDelay r answers n) (answers.get n) := by
    rw [hsession]
    exact gives_sendFrom_of_busy (hlength.trans_le hallowed) hbusy (hlength.symm ▸ hlast)
  -- the answers allow for one log only, so this is the one
  obtain ⟨hlog, hrun⟩ := Dialogue.transcript_of_gives hgives passes_course
  have hcourse : log = course client.baseDelay r answers n := hlog
  refine ⟨n, hn, ?_, ?_, hrun⟩
  · rw [hcourse, exchanges_course]
  · rw [hcourse, acts_course]

end Client

namespace Overloaded

def request : Request := Sample.request .get ["traffic-filters"] none

/-- The same to a place that no request goes to. -/
def unsupported : Request :=
  { request with url := { Sample.client.endpoint with scheme := "ftp" } }

/-- The body of the first answer breaks off, and the third one is an error
too. The fourth would have been good. -/
def answers : Stream' Exchange :=
  .cons (.error (.cutShort { code := 504 } "reset")) <| .cons (.ok ({ code := 429 }, [])) <|
    .cons (.ok ({ code := 500 }, [])) <| .const (.ok (.ok, []))

/-- The server is busy for as long as the client is patient. -/
theorem le_busyFor : (Sample.client.maxRetries : ℕ∞) ≤ Http.busyFor answers := by
  refine Http.le_busyFor_iff.2 fun i hi => ?_
  have hi : i < 2 := hi
  obtain rfl | rfl : i = 0 ∨ i = 1 := by omega
  · exact ⟨{ code := 504 }, rfl, by decide⟩
  · exact ⟨{ code := 429 }, rfl, by decide⟩

end Overloaded

/-- **An answer that came too late**: the client has given up before. A
request that cannot be sent asks nobody. -/
theorem Client.sent_while_busy_overloaded :
    (Client.unsendable? Overloaded.unsupported = some (.unsupported "ftp://localhost/") ∧
      (Sample.client.send Overloaded.unsupported).runWith Http.play Overloaded.answers =
        (.error (.unsupported "ftp://localhost/"), Overloaded.answers)) ∧
    Client.unsendable? Overloaded.request = none ∧
      (Sample.client.send Overloaded.request).runWith Http.play Overloaded.answers =
        (.ok ({ code := 500 }, []), Stream'.const (.ok (.ok, []))) ∧
      Http.acts ((Sample.client.send Overloaded.request).transcript Http.play
          Overloaded.answers) =
        [.send Overloaded.request, .wait 500, .send Overloaded.request, .wait 1000,
          .send Overloaded.request] := by
  have hunsendable : Client.unsendable? Overloaded.unsupported =
      some (.unsupported "ftp://localhost/") := by decide
  have hsendable : Client.unsendable? Overloaded.request = none := by decide
  obtain ⟨hfault, -⟩ :=
    Client.sent_while_busy Sample.client Overloaded.unsupported Overloaded.answers
  obtain ⟨-, hsent⟩ :=
    Client.sent_while_busy Sample.client Overloaded.request Overloaded.answers
  obtain ⟨n, hn, -, hacts, hrun⟩ := hsent hsendable
  -- the third answer is busy as well, but no repetition is left
  obtain rfl : n = 2 := by
    rw [if_neg (by decide), min_eq_right Overloaded.le_busyFor] at hn
    exact Nat.cast_inj.1 hn
  refine ⟨⟨hunsendable, (hfault _ hunsendable).2⟩, hsendable, hrun, ?_⟩
  rw [hacts]
  rfl

end TrafficGate
