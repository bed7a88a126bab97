import TrafficGate.Client
import TrafficGate.Proofs.Dialogue.Calls
/-!
# What a client exchanges for an operation

A log over HTTP holds exchanges, pauses and samples. A request may be sent
several times for one call, and only what came of the last time comes of
the call (`exchanges_perform`). An operation over HTTP is the operation
over calls, each call spelled out (`gives_carryOut`), so whatever holds of
every log of calls holds of what goes over the wire.
-/

namespace TrafficGate

open Dialogue (Gives)

namespace Http

/-- What was asked of the network and the clock, each with its answer. -/
abbrev Log := List (Sigma Answer)

/-- A request and what came of it, if that is what an entry is about. -/
def exchange? : Sigma Answer → Option (Request × Exchange)
  | ⟨.exchange r, x⟩ => some (r, x)
  | ⟨.pause _, _⟩ => none
  | ⟨.count _, _⟩ => none

/-- The requests of a log with what came of each. -/
def exchanges (log : Log) : List (Request × Exchange) := log.filterMap exchange?

@[simp] theorem exchanges_exchange (r : Request) (x : Exchange) (log : Log) :
    exchanges (⟨.exchange r, x⟩ :: log) = (r, x) :: exchanges log := rfl

@[simp] theorem exchanges_pause (milliseconds : Nat) (u : Answer (.pause milliseconds))
    (log : Log) :
    exchanges (⟨.pause milliseconds, u⟩ :: log) = exchanges log := rfl

@[simp] theorem exchanges_count (s : Sample) (u : Answer (.count s)) (log : Log) :
    exchanges (⟨.count s, u⟩ :: log) = exchanges log := rfl

@[simp] theorem exchanges_append (l₁ l₂ : Log) :
    exchanges (l₁ ++ l₂) = exchanges l₁ ++ exchanges l₂ :=
  List.filterMap_append

end Http

namespace Client

open Http (exchanges)

variable {client : Client} {α : Type}

/-! ## One call -/

/-- An exchange after which a request is not sent again. -/
def Final (r : Request) (x : Exchange) : Prop := asksAgain r x = false

/-- One of them is a success. -/
theorem final_ok (r : Request) (body : List UInt8) : Final r (.ok (.ok, body)) := Bool.and_false _

/-- The duration of an exchange, if a response came back. -/
def measured (r : Request) (x : Exchange) : Http.Log :=
  match Http.status? x with
  | some _ => [⟨.count (Metric.requestDuration.labelled "method" r.method.name), ()⟩]
  | none => []

/-- The measuring of an exchange asks nobody, and leaves its samples in the
log. -/
theorem gives_measure {r : Request} {x : Exchange} {log : Http.Log} {u : Unit} :
    Gives (measure r x) log u ↔ log = measured r x := by
  unfold measure measured
  cases Http.status? x with
  | none => exact Dialogue.gives_done.trans (and_iff_left rfl)
  | some status =>
    constructor
    · intro h
      obtain ⟨_, rfl, -⟩ := Dialogue.gives_ask_done.1 h
      rfl
    · rintro rfl
      exact Dialogue.gives_ask_done.2 ⟨u, rfl, rfl⟩

/-- The log of a request whose first answer stands. -/
def sentOnce (r : Request) (x : Exchange) : Http.Log := ⟨.exchange r, x⟩ :: measured r x

theorem exchanges_sentOnce (r : Request) (x : Exchange) : exchanges (sentOnce r x) = [(r, x)] := by
  unfold sentOnce measured
  cases Http.status? x with
  | none => rfl
  | some status => rfl

/-- What comes after a request was sent and measured. -/
theorem gives_exchange_bind {r : Request} {f : Exchange → HttpM Exchange} {log : Http.Log}
    {x : Exchange} :
    Gives ((HttpM.exchange r).bind fun y => (measure r y).bind fun _ => f y) log x ↔
      ∃ y rest, log = sentOnce r y ++ rest ∧ Gives (f y) rest x := by
  constructor
  · intro h
    obtain ⟨y, rest, rfl, hrest⟩ := Dialogue.gives_ask.1 h
    change Gives ((measure r y).bind fun _ => f y) rest x at hrest
    obtain ⟨u, l₁, l₂, rfl, hmeasure, hnext⟩ := Dialogue.gives_bind.1 hrest
    obtain rfl := gives_measure.1 hmeasure
    exact ⟨y, l₂, rfl, hnext⟩
  · rintro ⟨y, rest, rfl, hnext⟩
    have hmeasure : Gives (measure r y) (measured r y) () := gives_measure.2 rfl
    have hrest : Gives ((measure r y).bind fun _ => f y) (measured r y ++ rest) x :=
      Dialogue.gives_bind.2 ⟨(), _, rest, rfl, hmeasure, hnext⟩
    exact Dialogue.gives_ask.2 ⟨y, _, rfl, hrest⟩

/-- Without repetitions there is one answer, and it stands. -/
theorem gives_sendFrom_zero {base retries : Nat} {r : Request} {log : Http.Log} {x : Exchange} :
    Gives (sendFrom base r retries 0) log x ↔ log = sentOnce r x := by
  refine gives_exchange_bind.trans ?_
  constructor
  · rintro ⟨y, rest, rfl, hdone⟩
    obtain ⟨rfl, rfl⟩ := Dialogue.gives_done.1 hdone
    exact List.append_nil _
  · rintro rfl
    exact ⟨x, [], (List.append_nil _).symm, .nil⟩

/-- **What a client does that may still repeat**: its first answer stands,
or it asks for patience and the request is sent again after a pause. -/
theorem gives_sendFrom_succ {base retries allowed : Nat} {r : Request} {log : Http.Log}
    {x : Exchange} :
    Gives (sendFrom base r retries (allowed + 1)) log x ↔
      (Final r x ∧ log = sentOnce r x) ∨ ∃ (y : Exchange) (rest : Http.Log), ¬ Final r y ∧
        Gives (sendFrom base r (retries + 1) allowed) rest x ∧
        log = sentOnce r y ++ ⟨.count Metric.requestRetry.sample, ()⟩ ::
          ⟨.pause (backoff base retries), ()⟩ :: rest := by
  refine gives_exchange_bind.trans ?_
  constructor
  · rintro ⟨y, rest, rfl, hrest⟩
    by_cases hagain : asksAgain r y = true
    · rw [if_pos hagain] at hrest
      obtain ⟨_, rest, rfl, hpause⟩ := Dialogue.gives_ask.1 hrest
      obtain ⟨_, rest, rfl, hnext⟩ := Dialogue.gives_ask.1 hpause
      have hfinal : ¬ Final r y := ne_false_of_eq_true hagain
      exact .inr ⟨y, rest, hfinal, hnext, rfl⟩
    · rw [if_neg hagain] at hrest
      obtain ⟨rfl, rfl⟩ := Dialogue.gives_done.1 hrest
      exact .inl ⟨Bool.eq_false_iff.2 hagain, List.append_nil _⟩
  · rintro (⟨hfinal, rfl⟩ | ⟨y, rest, hfinal, hnext, rfl⟩)
    · have hdone : ¬ asksAgain r x = true := Bool.eq_false_iff.1 hfinal
      refine ⟨x, [], (List.append_nil _).symm, ?_⟩
      rw [if_neg hdone]
      exact .nil
    · have hagain : asksAgain r y = true := Bool.not_eq_false _ ▸ hfinal
      refine ⟨y, _, rfl, ?_⟩
      rw [if_pos hagain]
      exact .cons (.cons hnext)

/-- **A request is sent again unchanged**, and the last exchange decides. -/
theorem exchanges_sendFrom {base retries allowed : Nat} {r : Request} {log : Http.Log}
    {x : Exchange} (h : Gives (sendFrom base r retries allowed) log x) :
    ∃ earlier : List Exchange, exchanges log = earlier.map (Prod.mk r) ++ [(r, x)] := by
  induction allowed generalizing retries log with
  | zero =>
    obtain rfl := gives_sendFrom_zero.1 h
    exact ⟨[], exchanges_sentOnce r x⟩
  | succ allowed ih =>
    rcases gives_sendFrom_succ.1 h with ⟨-, rfl⟩ | ⟨y, rest, -, hagain, rfl⟩
    · exact ⟨[], exchanges_sentOnce r x⟩
    · -- the request is sent again, and what comes of that decides
      obtain ⟨earlier, hlast⟩ := ih hagain
      refine ⟨y :: earlier, ?_⟩
      rw [Http.exchanges_append, exchanges_sentOnce]
      exact congrArg (List.cons (r, y)) hlast

/-- An answer that is final ends the sending with one exchange. -/
theorem exists_sendFrom {base retries allowed : Nat} {r : Request} {x : Exchange}
    (h : Final r x) :
    ∃ log, Gives (sendFrom base r retries allowed) log x ∧ exchanges log = [(r, x)] := by
  refine ⟨sentOnce r x, ?_, exchanges_sentOnce r x⟩
  cases allowed with
  | zero => exact gives_sendFrom_zero.2 rfl
  | succ allowed => exact gives_sendFrom_succ.2 (.inl ⟨h, rfl⟩)

/-- The request that goes out for a call, if one can be written and sent. -/
def request? (client : Client) (c : Call) : Option Request :=
  match client.request c with
  | .ok r => if unsendable? r = none then some r else none
  | .error _ => none

/-- What a call gets to know by an exchange. -/
def understood (c : Call) : Exchange → c.Outcome
  | .ok raw => interpret c raw
  | .error fault => .error (.transport fault)

/-- A call has a request if one can be made of it that can be sent. -/
theorem request?_eq_some {c : Call} {r : Request} :
    client.request? c = some r ↔ client.request c = .ok r ∧ unsendable? r = none := by
  unfold request?
  cases client.request c with
  | error e => simp
  | ok request =>
    simp only [Option.ite_none_right_eq_some, Option.some.injEq, Except.ok.injEq]
    constructor
    · rintro ⟨hsendable, rfl⟩
      exact ⟨rfl, hsendable⟩
    · rintro ⟨rfl, hsendable⟩
      exact ⟨hsendable, rfl⟩

/-- A request says what its call says, and who asks. -/
theorem eq_of_request? {c : Call} {r : Request} (h : client.request? c = some r) :
    ∃ u, url client.endpoint c.segments = .ok u ∧
      r = ⟨c.method, u, "ApiKey " ++ client.apiKey, c.body?.map Json.compact⟩ := by
  have hrequest := (request?_eq_some.1 h).1
  unfold request at hrequest
  cases hurl : url client.endpoint c.segments with
  | error e =>
    rw [hurl] at hrequest
    cases hrequest
  | ok u =>
    rw [hurl] at hrequest
    exact ⟨u, rfl, (Except.ok.inj hrequest).symm⟩

/-- The body of a request is that of its call. -/
theorem body_of_request? {c : Call} {r : Request} (h : client.request? c = some r) :
    r.body = c.body?.map Json.compact := by
  obtain ⟨u, -, rfl⟩ := eq_of_request? h
  rfl

/-- **A call is one request**, sent as often as it takes, and what it gets
to know is what the last exchange means; or nothing can be sent for it. -/
theorem gives_perform {c : Call} {log : Http.Log} {o : c.Outcome}
    (h : Gives (client.perform c) log o) :
    (client.request? c = none ∧ exchanges log = [] ∧ ∃ e, o = .error e) ∨
    ∃ (r : Request) (earlier : List Exchange) (x : Exchange), client.request? c = some r ∧
      exchanges log = earlier.map (Prod.mk r) ++ [(r, x)] ∧ o = understood c x := by
  unfold perform at h
  unfold request?
  cases hrequest : client.request c with
  | error e =>
    rw [hrequest] at h
    obtain ⟨rfl, rfl⟩ := Dialogue.gives_done.1 h
    exact .inl ⟨rfl, rfl, e, rfl⟩
  | ok r =>
    rw [hrequest] at h
    obtain ⟨x, l₁, l₂, rfl, hsend, h⟩ := Dialogue.gives_bind.1 h
    have hl₂ : l₂ = [] ∧ o = understood c x := by
      cases x with
      | error fault => exact Dialogue.gives_done.1 h
      | ok raw => exact Dialogue.gives_done.1 h
    obtain ⟨rfl, rfl⟩ := hl₂
    rw [List.append_nil]
    unfold send at hsend
    cases hfault : unsendable? r with
    | some fault =>
      rw [hfault] at hsend
      obtain ⟨rfl, rfl⟩ := Dialogue.gives_done.1 hsend
      exact .inl ⟨by simp [hfault], rfl, _, rfl⟩
    | none =>
      rw [hfault] at hsend
      obtain ⟨earlier, hexchanges⟩ := exchanges_sendFrom hsend
      exact .inr ⟨r, earlier, x, by simp [hfault], hexchanges, rfl⟩

/-- Whatever is sent for a call is its request. -/
theorem request?_of_mem {c : Call} {log : Http.Log} {o : c.Outcome}
    (h : Gives (client.perform c) log o) {e : Request × Exchange} (he : e ∈ exchanges log) :
    client.request? c = some e.1 := by
  rcases gives_perform h with ⟨-, hwire, -⟩ | ⟨r, earlier, x, hr, hwire, -⟩
  · rw [hwire] at he
    cases he
  · rw [hwire, List.mem_append, List.mem_map, List.mem_singleton] at he
    rcases he with ⟨y, -, rfl⟩ | rfl
    · exact hr
    · exact hr

/-- A call whose request can be sent is that request. -/
theorem gives_perform_of_sendFrom {c : Call} {r : Request} {log : Http.Log} {x : Exchange}
    (hr : client.request? c = some r)
    (h : Gives (sendFrom client.baseDelay r 0 client.maxRetries) log x) :
    Gives (client.perform c) log (understood c x) := by
  obtain ⟨hrequest, hsendable⟩ := request?_eq_some.1 hr
  have hsent : Gives (client.send r) log x := by
    unfold send
    rw [hsendable]
    exact h
  unfold perform
  rw [hrequest]
  refine Dialogue.gives_bind.2 ⟨x, log, [], (List.append_nil log).symm, hsent, ?_⟩
  cases x with
  | ok raw => exact .nil
  | error fault => exact .nil

/-- **It may end** with any exchange that does not ask for another. -/
theorem exists_perform {c : Call} {r : Request} {x : Exchange} (hr : client.request? c = some r)
    (h : Final r x) :
    ∃ log, Gives (client.perform c) log (understood c x) ∧ exchanges log = [(r, x)] := by
  obtain ⟨log, hsend, hlog⟩ := @exists_sendFrom client.baseDelay 0 client.maxRetries r x h
  exact ⟨log, gives_perform_of_sendFrom hr hsend, hlog⟩

/-- **A response that a call gets is what the last exchange means.** -/
theorem exchanges_perform {c : Call} {log : Http.Log} {response : Response c.Payload}
    (h : Gives (client.perform c) log (.ok response)) :
    ∃ request raw, client.request c = .ok request ∧
      (exchanges log).getLast? = some (request, .ok raw) ∧ interpret c raw = .ok response := by
  rcases gives_perform h with ⟨-, -, e, he⟩ | ⟨r, earlier, x, hr, hexchanges, hx⟩
  · cases he
  · cases x with
    | error fault => cases hx
    | ok raw =>
      exact ⟨r, raw, (request?_eq_some.1 hr).1, by rw [hexchanges, List.getLast?_concat], hx.symm⟩

section Interpret

variable {c : Call} {raw : RawResponse} {codec : Json.Codec c.Payload}

/-- A call that has nothing to read takes the answer as it is. -/
theorem interpret_of_none (h : c.codec? = none) :
    interpret c raw = .ok ⟨raw.1, none, raw.2⟩ := by
  unfold interpret
  rw [h]

/-- Under a status that is not its own, every call does. -/
theorem interpret_of_ne (h : raw.1 ≠ c.successStatus) :
    interpret c raw = .ok ⟨raw.1, none, raw.2⟩ := by
  unfold interpret
  cases c.codec? with
  | none => rfl
  | some codec => exact if_neg h

/-- Under its own status a call takes what is read from the body. -/
theorem interpret_of_ofBytes_ok {payload : c.Payload} (hcodec : c.codec? = some codec)
    (hstatus : raw.1 = c.successStatus) (hbytes : codec.ofBytes raw.2 = .ok payload) :
    interpret c raw = .ok ⟨raw.1, some payload, raw.2⟩ := by
  unfold interpret
  rw [hcodec]
  refine (if_pos hstatus).trans ?_
  rw [hbytes]

/-- If nothing is read from the body then, the fault is that of the reader. -/
theorem interpret_of_ofBytes_error {fault : Json.Fault} (hcodec : c.codec? = some codec)
    (hstatus : raw.1 = c.successStatus) (hbytes : codec.ofBytes raw.2 = .error fault) :
    interpret c raw = .error (.json fault) := by
  unfold interpret
  rw [hcodec]
  refine (if_pos hstatus).trans ?_
  rw [hbytes]

/-- **What a response says of the message it came in.** It has the status
of the message, and a payload only if the status means success and the body
could be read. -/
theorem of_interpret {r : Response c.Payload} (h : interpret c raw = .ok r) :
    r = ⟨raw.1, none, raw.2⟩ ∨ ∃ codec payload, c.codec? = some codec ∧
      raw.1 = c.successStatus ∧ codec.ofBytes raw.2 = .ok payload ∧
      r = ⟨raw.1, some payload, raw.2⟩ := by
  cases hcodec : c.codec? with
  | none => exact .inl (Except.ok.inj (h.symm.trans (interpret_of_none hcodec)))
  | some codec =>
    by_cases hstatus : raw.1 = c.successStatus
    · cases hbytes : codec.ofBytes raw.2 with
      | ok payload =>
        have hr := Except.ok.inj (h.symm.trans (interpret_of_ofBytes_ok hcodec hstatus hbytes))
        exact .inr ⟨codec, payload, rfl, hstatus, hbytes, hr⟩
      | error fault =>
        have herror := h.symm.trans (interpret_of_ofBytes_error hcodec hstatus hbytes)
        cases herror
    · exact .inl (Except.ok.inj (h.symm.trans (interpret_of_ne hstatus)))

/-- A response has the status that was answered. -/
theorem status_of_interpret {r : Response c.Payload} (h : interpret c raw = .ok r) :
    r.status = raw.1 := by
  rcases of_interpret h with rfl | ⟨codec, payload, -, -, -, rfl⟩
  · rfl
  · rfl

end Interpret

/-! ## A whole operation -/

/-- A log of calls spelled out in exchanges: each call by a log that
performs it. -/
inductive Spells (client : Client) : List AnsweredCall → List (Request × Exchange) → Prop
  | nil : Spells client [] []
  | cons {c : Call} {o : c.Outcome} {l : Http.Log} {log : List AnsweredCall}
      {spelled : List (Request × Exchange)} :
      Gives (client.perform c) l o → Spells client log spelled →
      Spells client (⟨c, o⟩ :: log) (exchanges l ++ spelled)

theorem spells_nil {wire : List (Request × Exchange)} : Spells client [] wire ↔ wire = [] := by
  constructor
  · rintro ⟨⟩
    rfl
  · rintro rfl
    exact .nil

/-- Calls are spelled by the exchanges of the first, and then those of the
others. -/
theorem spells_cons {c : Call} {o : c.Outcome} {answered : List AnsweredCall}
    {wire : List (Request × Exchange)} :
    Spells client (⟨c, o⟩ :: answered) wire ↔
      ∃ l rest, Gives (client.perform c) l o ∧ Spells client answered rest ∧
        wire = exchanges l ++ rest := by
  constructor
  · rintro (_ | ⟨hperform, hrest⟩)
    exact ⟨_, _, hperform, hrest, rfl⟩
  · rintro ⟨l, rest, hperform, hrest, rfl⟩
    exact .cons hperform hrest

/-- A single call is spelled out by what it puts on the wire. -/
theorem spells_singleton {c : Call} {o : c.Outcome} {wire : List (Request × Exchange)} :
    Spells client [⟨c, o⟩] wire ↔ ∃ l, Gives (client.perform c) l o ∧ wire = exchanges l := by
  simp only [spells_cons, spells_nil]
  constructor
  · rintro ⟨l, rest, hperform, rfl, rfl⟩
    exact ⟨l, hperform, List.append_nil _⟩
  · rintro ⟨l, hperform, rfl⟩
    exact ⟨l, [], hperform, rfl, (List.append_nil _).symm⟩

/-- **An operation over HTTP is the operation over calls**, with each call
spelled out. -/
theorem gives_carryOut {operation : ApiM α} {log : Http.Log} {a : α}
    (h : Gives (client.carryOut operation) log a) :
    ∃ answered, Gives operation.calls answered a ∧ Spells client answered (exchanges log) := by
  induction operation generalizing log with
  | done b =>
    obtain ⟨rfl, rfl⟩ := Dialogue.gives_done.1 h
    exact ⟨[], Dialogue.gives_done.2 ⟨rfl, rfl⟩, .nil⟩
  | ask q next ih =>
    obtain ⟨r, l₁, l₂, rfl, hr, h⟩ := Dialogue.gives_bind.1 h
    obtain ⟨answered, hgives, hspells⟩ := ih r h
    rw [Http.exchanges_append]
    cases q with
    | call c => exact ⟨⟨c, r⟩ :: answered, .cons hgives, .cons hr hspells⟩
    | count s =>
      obtain ⟨_, l, rfl, hdone⟩ := Dialogue.gives_ask.1 hr
      obtain ⟨rfl, rfl⟩ := Dialogue.gives_done.1 hdone
      exact ⟨answered, hgives, hspells⟩

/-- Work on the result of an operation sends nothing. -/
theorem gives_carryOut_bind_done {β : Type} {operation : ApiM α} {f : α → β} {log : Http.Log}
    {b : β} :
    Gives (client.carryOut (operation.bind fun a => .done (f a))) log b ↔
      ∃ a, Gives (client.carryOut operation) log a ∧ b = f a := by
  rw [carryOut, Dialogue.lower_bind]
  exact Dialogue.gives_bind_done

/-- Calls that can be spelled out are what an operation over HTTP does. -/
theorem exists_carryOut {operation : ApiM α} {answered : List AnsweredCall}
    {wire : List (Request × Exchange)} {a : α} (h : Gives operation.calls answered a)
    (hspells : Spells client answered wire) :
    ∃ log, Gives (client.carryOut operation) log a ∧ exchanges log = wire := by
  induction operation generalizing answered wire with
  | done b =>
    obtain ⟨rfl, rfl⟩ := Dialogue.gives_done.1 h
    obtain rfl := spells_nil.1 hspells
    exact ⟨[], .nil, rfl⟩
  | ask q next ih =>
    cases q with
    | call c =>
      obtain ⟨o, rest, rfl, hnext⟩ := Dialogue.gives_ask.1 h
      obtain ⟨l, wire, hperform, hrest, rfl⟩ := spells_cons.1 hspells
      obtain ⟨log, hgives, rfl⟩ := ih o hnext hrest
      exact ⟨l ++ log, Dialogue.gives_bind.2 ⟨o, l, log, rfl, hperform, hgives⟩,
        Http.exchanges_append l log⟩
    | count s =>
      obtain ⟨log, hgives, rfl⟩ := ih () h hspells
      exact ⟨⟨.count s, ()⟩ :: log, .cons hgives, rfl⟩

/-- **Every request of an operation is one of its calls.** -/
theorem Spells.exists_call {answered : List AnsweredCall} {wire : List (Request × Exchange)}
    (h : client.Spells answered wire) :
    ∀ e ∈ wire, ∃ c ∈ answered.map Sigma.fst, client.request? c = some e.1 := by
  induction h with
  | nil => exact List.forall_mem_nil _
  | @cons c o l answered wire hperform _ ih =>
    intro e he
    rcases List.mem_append.1 he with he | he
    · exact ⟨c, List.mem_cons_self, request?_of_mem hperform he⟩
    · obtain ⟨c', hc', hrequest⟩ := ih e he
      exact ⟨c', List.mem_cons_of_mem c hc', hrequest⟩

/-- Where the operation made one call, the last exchange is one of its
request, and decided. -/
theorem Spells.getLast {c : Call} {o : c.Outcome} {wire : List (Request × Exchange)} {r : Request}
    {x : Exchange} (h : Spells client [⟨c, o⟩] wire) (hlast : wire.getLast? = some (r, x)) :
    client.request? c = some r ∧ o = understood c x := by
  obtain ⟨l, hperform, rfl⟩ := spells_singleton.1 h
  rcases gives_perform hperform with ⟨-, hwire, -⟩ | ⟨r', earlier, x', hr, hwire, ho⟩
  · simp [hwire] at hlast
  · rw [hwire, List.getLast?_concat] at hlast
    obtain ⟨rfl, rfl⟩ := Prod.mk.inj (Option.some.inj hlast)
    exact ⟨hr, ho⟩

section OneCall

variable {operation : ApiM α} {c : Call} {f : c.Outcome → α} {r : Request} {x : Exchange}

/-- **What an operation of one call gives** is decided by the last exchange. -/
theorem of_getLast {log : Http.Log} {a : α}
    (hcalls : operation.calls = .ask c fun o => .done (f o))
    (h : Gives (client.carryOut operation) log a) (hlast : (exchanges log).getLast? = some (r, x)) :
    client.request? c = some r ∧ a = f (understood c x) := by
  obtain ⟨answered, hgives, hspells⟩ := gives_carryOut h
  rw [hcalls] at hgives
  obtain ⟨o, rfl, rfl⟩ := Dialogue.gives_ask_done.1 hgives
  obtain ⟨hr, rfl⟩ := hspells.getLast hlast
  exact ⟨hr, rfl⟩

/-- Any exchange that does not ask for another may be the only one. -/
theorem exists_of_final (hcalls : operation.calls = .ask c fun o => .done (f o))
    (hr : client.request? c = some r) (hfinal : Final r x) :
    ∃ log, Gives (client.carryOut operation) log (f (understood c x)) ∧
      exchanges log = [(r, x)] := by
  obtain ⟨l, hperform, hl⟩ := exists_perform hr hfinal
  have hgives : Gives operation.calls [⟨c, understood c x⟩] (f (understood c x)) := by
    rw [hcalls]
    exact .cons .nil
  exact exists_carryOut hgives (spells_singleton.2 ⟨l, hperform, hl.symm⟩)

/-- An operation that may end with this exchange, and then gives this result
and no other. -/
def Yields (client : Client) (operation : ApiM α) (e : Request × Exchange) (a : α) : Prop :=
  (∃ log, Gives (client.carryOut operation) log a ∧ exchanges log = [e]) ∧
  ∀ log b, Gives (client.carryOut operation) log b → (exchanges log).getLast? = some e → b = a

/-- An operation of one call that is answered for good yields what it makes
of the answer. -/
theorem yields_of_calls (hcalls : operation.calls = .ask c fun o => .done (f o))
    (hr : client.request? c = some r) (hfinal : Final r x) :
    client.Yields operation (r, x) (f (understood c x)) :=
  ⟨exists_of_final hcalls hr hfinal, fun _ _ h hlast => (of_getLast hcalls h hlast).2⟩

end OneCall

/-- If it got a response, there was an exchange. -/
theorem Spells.single {c : Call} {response : Response c.Payload}
    {spelled : List (Request × Exchange)} (h : Spells client [⟨c, .ok response⟩] spelled) :
    ∃ request raw, client.request c = .ok request ∧
      spelled.getLast? = some (request, .ok raw) ∧ interpret c raw = .ok response := by
  obtain ⟨l, hperform, rfl⟩ := spells_singleton.1 h
  exact exchanges_perform hperform

end Client

end TrafficGate
