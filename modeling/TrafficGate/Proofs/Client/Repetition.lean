import Mathlib.Data.Stream.Init
import TrafficGate.Program
import TrafficGate.Proofs.Client.Exchanges
/-!
# Repetitions do not show

A client that may repeat requests is held against one that may not. What
the first gets to know is what the second gets to know from the answers
that stood, so the answers that led to a repetition can be taken out of
what the server says, and nothing above the client changes.

The two sessions run through the answers at different speeds. They are
therefore compared by their logs (`Condenses`), which compose along `bind`,
and only the log of a whole session is laid against the answers again.
-/

namespace TrafficGate

open Dialogue (Gives Passes AnsweredBy)

namespace Http

/-! ## Answers from a stream -/

/-- Gives each request the next answer, whatever it asks for. Pauses and
samples take none. -/
def play : (q : Question) → Stream' Exchange → Answer q × Stream' Exchange
  | .exchange _, answers => (answers.head, answers.tail)
  | .pause _, answers => ((), answers)
  | .count _, answers => ((), answers)

/-- An exchange takes the first of the answers. -/
theorem answeredBy_exchange {r : Request} {x : Exchange} {answers rest : Stream' Exchange} :
    AnsweredBy play answers ⟨.exchange r, x⟩ rest ↔ answers = .cons x rest := by
  constructor
  · intro h
    obtain ⟨rfl, rfl⟩ := Prod.mk.inj h
    exact (Stream'.eta answers).symm
  · rintro rfl
    rfl

/-- A log is played from just the answers of its exchanges. -/
theorem passes_play {log : Log} {answers rest : Stream' Exchange} :
    Passes (AnsweredBy play) answers log rest ↔
      answers = (exchanges log).map Prod.snd ++ₛ rest := by
  induction log generalizing answers with
  | nil => exact Dialogue.passes_nil.trans eq_comm
  | cons e log ih =>
    rw [Dialogue.passes_cons]
    obtain ⟨q, x⟩ := e
    cases q with
    | exchange r =>
      rw [exchanges_exchange r x log, List.map_cons, Stream'.cons_append_stream]
      constructor
      · rintro ⟨mid, hanswer, hlog⟩
        rw [answeredBy_exchange.1 hanswer, ih.1 hlog]
      · rintro rfl
        exact ⟨_, answeredBy_exchange.2 rfl, ih.2 rfl⟩
    | pause milliseconds =>
      constructor
      · rintro ⟨mid, hanswer, hlog⟩
        obtain ⟨-, rfl⟩ := Prod.mk.inj hanswer
        exact ih.1 hlog
      · intro h
        exact ⟨answers, rfl, ih.2 h⟩
    | count s =>
      constructor
      · rintro ⟨mid, hanswer, hlog⟩
        obtain ⟨-, rfl⟩ := Prod.mk.inj hanswer
        exact ih.1 hlog
      · intro h
        exact ⟨answers, rfl, ih.2 h⟩

/-! ## The answers that stood -/

/-- Whether there is a pause before the next request. -/
def pausesNext : Log → Bool
  | [] => false
  | ⟨.exchange _, _⟩ :: _ => false
  | ⟨.pause _, _⟩ :: _ => true
  | ⟨.count _, _⟩ :: log => pausesNext log

/-- The exchanges of a log that stood. After any other one the client
pauses, and sends the request again. -/
def standing : Log → List (Request × Exchange)
  | [] => []
  | ⟨.exchange r, x⟩ :: log => if pausesNext log then standing log else (r, x) :: standing log
  | ⟨.pause _, _⟩ :: log => standing log
  | ⟨.count _, _⟩ :: log => standing log

/-- The answers of a server, without those after which the client repeated
its request. -/
def withoutRepeated (log : Log) (answers : Stream' Exchange) : Stream' Exchange :=
  (standing log).map Prod.snd ++ₛ answers.drop (exchanges log).length

/-- What is left after a log is what the server would say next. -/
theorem withoutRepeated_of_passes {log : Log} {answers rest : Stream' Exchange}
    (h : Passes (AnsweredBy play) answers log rest) :
    withoutRepeated log answers = (standing log).map Prod.snd ++ₛ rest := by
  have hdrop := Stream'.drop_append_stream ((exchanges log).map Prod.snd) rest
  rw [← passes_play.1 h, List.length_map] at hdrop
  rw [withoutRepeated, hdrop]

/-- What comes next is decided by the first log, unless the second begins
with a pause. -/
theorem pausesNext_append {l₁ l₂ : Log} (h : pausesNext l₂ = false) :
    pausesNext (l₁ ++ l₂) = pausesNext l₁ := by
  induction l₁ with
  | nil => exact h
  | cons e l₁ ih =>
    obtain ⟨q, x⟩ := e
    cases q with
    | exchange r => rfl
    | pause milliseconds => rfl
    | count s => exact ih

/-- Where a part of a log ends, no repetition is due. -/
theorem standing_append {l₁ l₂ : Log} (h : pausesNext l₂ = false) :
    standing (l₁ ++ l₂) = standing l₁ ++ standing l₂ := by
  induction l₁ with
  | nil => rfl
  | cons e l₁ ih =>
    obtain ⟨q, x⟩ := e
    cases q with
    | exchange r =>
      simp only [List.cons_append, standing, pausesNext_append h, ih]
      split
      · rfl
      · rfl
    | pause milliseconds => exact ih
    | count s => exact ih

end Http

namespace Client

open Http (exchanges pausesNext standing)

variable {α β : Type}

/-! ## Requests repeated in place -/

/-- The second list is the first, with requests sent several times. They
follow each other, and only the last answer stood. -/
inductive Repeated : List (Request × Exchange) → List (Request × Exchange) → Prop
  | nil : Repeated [] []
  /-- An exchange that stood is in both. -/
  | stands {e : Request × Exchange} {once wire : List (Request × Exchange)} :
      Repeated once wire → Repeated (e :: once) (e :: wire)
  /-- The request was sent once before, and the answer asked for patience. -/
  | again {r : Request} {x y : Exchange} {once wire : List (Request × Exchange)} :
      ¬ Final r y → Repeated ((r, x) :: once) wire →
      Repeated ((r, x) :: once) ((r, y) :: wire)

/-- Repetitions in two parts are repetitions in the whole. -/
theorem Repeated.append {once₁ wire₁ once₂ wire₂ : List (Request × Exchange)}
    (h₁ : Repeated once₁ wire₁) (h₂ : Repeated once₂ wire₂) :
    Repeated (once₁ ++ once₂) (wire₁ ++ wire₂) := by
  induction h₁ with
  | nil => exact h₂
  | stands _ ih => exact .stands ih
  | again hy _ ih => exact .again hy ih

/-! ## One session condensed to another -/

/-- Whatever comes of the first dialogue comes of the second when it is
told only the answers that stood. A log does not begin with a pause, so no
answer before it is taken for one that led to a repetition. -/
def Condenses (d d' : HttpM α) : Prop :=
  ∀ log a, Gives d log a → pausesNext log = false ∧ Repeated (standing log) (exchanges log) ∧
    ∃ log', Gives d' log' a ∧ exchanges log' = standing log

/-- What is over condenses to itself. -/
theorem condenses_done (a : α) : Condenses (.done a) (.done a) := by
  intro log b h
  obtain ⟨rfl, rfl⟩ := Dialogue.gives_done.1 h
  exact ⟨rfl, .nil, [], .nil, rfl⟩

theorem condenses_count (s : Sample) : Condenses (HttpM.count s) (HttpM.count s) := by
  intro log b h
  obtain ⟨u, rest, rfl, hdone⟩ := Dialogue.gives_ask.1 h
  obtain ⟨rfl, rfl⟩ := Dialogue.gives_done.1 hdone
  exact ⟨rfl, .nil, [⟨.count s, b⟩], h, rfl⟩

/-- Sessions in a row condense part by part. -/
theorem Condenses.bind {d d' : HttpM α} {f f' : α → HttpM β} (h : Condenses d d')
    (hf : ∀ a, Condenses (f a) (f' a)) : Condenses (d.bind f) (d'.bind f') := by
  intro log b hgives
  obtain ⟨a, l₁, l₂, rfl, h₁, h₂⟩ := Dialogue.gives_bind.1 hgives
  obtain ⟨hends₁, hrepeated₁, l₁', h₁', hl₁'⟩ := h l₁ a h₁
  obtain ⟨hends₂, hrepeated₂, l₂', h₂', hl₂'⟩ := hf a l₂ b h₂
  rw [Http.standing_append hends₂, Http.exchanges_append]
  refine ⟨(Http.pausesNext_append hends₂).trans hends₁, hrepeated₁.append hrepeated₂,
    l₁' ++ l₂', Dialogue.gives_bind.2 ⟨a, l₁', l₂', rfl, h₁', h₂'⟩, ?_⟩
  rw [Http.exchanges_append, hl₁', hl₂']

/-! ### One request -/

theorem standing_sentOnce (r : Request) (x : Exchange) : standing (sentOnce r x) = [(r, x)] := by
  unfold sentOnce measured
  cases Http.status? x with
  | none => rfl
  | some status => rfl

/-- Where a pause follows, the answer did not stand. -/
theorem standing_sentOnce_append (r : Request) (x : Exchange) {log : Http.Log}
    (h : pausesNext log = true) : standing (sentOnce r x ++ log) = standing log := by
  unfold sentOnce measured
  cases Http.status? x with
  | none => exact if_pos h
  | some status => exact if_pos h

/-- **A request that may be sent again** comes to what it comes to if it is
sent once, and gets the answer that stood. -/
theorem condenses_sendFrom (base : Nat) (r : Request) (retries allowed : Nat) :
    Condenses (sendFrom base r retries allowed) (sendFrom base r 0 0) := by
  intro log x h
  have hlog : pausesNext log = false ∧ standing log = [(r, x)] ∧
      Repeated [(r, x)] (exchanges log) := by
    induction allowed generalizing retries log with
    | zero =>
      obtain rfl := gives_sendFrom_zero.1 h
      rw [exchanges_sentOnce]
      exact ⟨rfl, standing_sentOnce r x, .stands .nil⟩
    | succ allowed ih =>
      rcases gives_sendFrom_succ.1 h with ⟨-, rfl⟩ | ⟨y, rest, hy, hagain, rfl⟩
      · rw [exchanges_sentOnce]
        exact ⟨rfl, standing_sentOnce r x, .stands .nil⟩
      · obtain ⟨hends, hstanding, hrepeated⟩ := ih (retries + 1) rest hagain
        refine ⟨rfl, ?_, ?_⟩
        · rw [standing_sentOnce_append r y rfl]
          exact hstanding
        · rw [Http.exchanges_append, exchanges_sentOnce]
          exact .again hy hrepeated
  obtain ⟨hends, hstanding, hrepeated⟩ := hlog
  rw [hstanding]
  exact ⟨hends, hrepeated, sentOnce r x, gives_sendFrom_zero.2 rfl, exchanges_sentOnce r x⟩

/-- A server that is busy at first: of its two answers the second stood. -/
example (answers : Stream' Exchange) :
    let busy : Exchange := .ok ({ code := 503 }, [])
    let served : Exchange := .ok (.ok, [])
    let log := (sendFrom 500 default 0 1).transcript Http.play (.cons busy (.cons served answers))
    standing log = [(default, served)] ∧
      exchanges log = [(default, busy), (default, served)] := ⟨rfl, rfl⟩

/-! ## Whole operations -/

/-- The client that sends each request once. -/
def withoutRetries (client : Client) : Client := { client with maxRetries := 0 }

/-- A request that may be repeated condenses to one that may not. -/
theorem condenses_send (client : Client) (r : Request) :
    Condenses (client.send r) (client.withoutRetries.send r) := by
  unfold send
  cases unsendable? r with
  | some fault => exact condenses_done _
  | none => exact condenses_sendFrom client.baseDelay r 0 client.maxRetries

/-- A call condenses with its request. -/
theorem condenses_perform (client : Client) (c : Call) :
    Condenses (client.perform c) (client.withoutRetries.perform c) := by
  have hrequest : client.withoutRetries.request c = client.request c := rfl
  unfold perform
  rw [hrequest]
  cases client.request c with
  | error e => exact condenses_done _
  | ok r =>
    refine (condenses_send client r).bind fun x => ?_
    cases x with
    | error fault => exact condenses_done _
    | ok raw => exact condenses_done _

/-- An answer condenses with the call that it is the answer to. -/
theorem condenses_answer (client : Client) (q : Api.Question) :
    Condenses (client.answer q) (client.withoutRetries.answer q) := by
  cases q with
  | call c => exact condenses_perform client c
  | count s => exact condenses_count s

/-- An operation condenses answer by answer. -/
theorem condenses_carryOut (client : Client) (operation : ApiM α) :
    Condenses (client.carryOut operation) (client.withoutRetries.carryOut operation) := by
  induction operation with
  | done a => exact condenses_done a
  | ask q next ih => exact (condenses_answer client q).bind ih

end Client

/-- The settings under which each request is sent once. -/
def Settings.withoutRetries (settings : Settings) : Settings :=
  { settings with api := { settings.api with maxRetries := 0 } }

namespace Program

open Client (Repeated Condenses)
open Http (play exchanges standing withoutRepeated)

/-- The command of a program condenses with its operation. -/
theorem condenses_execute (files : Files) (settings : Settings) (command : Command) :
    Condenses (execute files settings command)
      (execute files settings.withoutRetries command) := by
  unfold execute
  cases command.run files with
  | error fault => exact Client.condenses_done _
  | ok operation =>
    exact (Client.condenses_carryOut settings.api.client operation).bind fun report =>
      Client.condenses_done _

/-- **Repetitions do not show.** A command is carried out against any
server, which answers request after request with whatever it likes. If the
answers after which a request was repeated are taken out, a client that
does not repeat comes to the same ending and leaves the same answers
untouched. It sends the same requests in the same order, each of them once
where the first client repeated it in place. -/
theorem repetitions_do_not_show (files : Files) (settings : Settings) (command : Command)
    (answers : Stream' Exchange) :
    let session := execute files settings command
    let plain := execute files settings.withoutRetries command
    let log := session.transcript play answers
    let stood := withoutRepeated log answers
    plain.runWith play stood = session.runWith play answers ∧
      exchanges (plain.transcript play stood) = standing log ∧
      Repeated (standing log) (exchanges log) := by
  intro session plain log stood
  have hgives : Gives session log (session.runWith play answers).1 :=
    Dialogue.gives_transcript session answers
  have hanswers : Passes (AnsweredBy play) answers log (session.runWith play answers).2 :=
    Dialogue.passes_transcript session answers
  -- the logs are compared first, whoever answers
  obtain ⟨-, hrepeated, log', hplain, hexchanges⟩ :=
    condenses_execute files settings command log _ hgives
  have hstood : Passes (AnsweredBy play) stood log' (session.runWith play answers).2 := by
    rw [Http.passes_play, hexchanges]
    exact Http.withoutRepeated_of_passes hanswers
  obtain ⟨htranscript, hrun⟩ := Dialogue.transcript_of_gives hplain hstood
  exact ⟨hrun, by rw [htranscript, hexchanges], hrepeated⟩

end Program

end TrafficGate
