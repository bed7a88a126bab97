import Mathlib.Algebra.Order.BigOperators.Group.List
import TrafficGate.Proofs.Client.Patience
/-!
# How long a client waits

The pause before a repetition is the base delay, doubled for each repetition
that went before, but half a minute at most. It is computed within fixed
widths: the power stays within thirty-two bits, and a duration within the
longest one. Neither limit shows, since whatever reaches one of them is
longer than half a minute (`total_delay`). So the pauses of one request are
known in advance, and bounded by how many there are (`pauses_bounded`).
-/

namespace TrafficGate

open Dialogue (Gives)

namespace Http

/-- How long a client waits, if that is what an entry of a log is about. -/
def pause? : Sigma Answer → Option Nat
  | ⟨.pause milliseconds, _⟩ => some milliseconds
  | ⟨.exchange _, _⟩ => none
  | ⟨.count _, _⟩ => none

/-- The pauses of a log, in milliseconds. -/
def pauses (log : Log) : List Nat := log.filterMap pause?

@[simp] theorem pauses_append (l₁ l₂ : Log) : pauses (l₁ ++ l₂) = pauses l₁ ++ pauses l₂ :=
  List.filterMap_append

end Http

namespace Client

open Http (exchanges pauses)

variable {client : Client} {r : Request} {x : Exchange} {log : Http.Log}
  {base retries allowed n : Nat}

/-! ## One pause -/

/-- The power is exact until it reaches its limit. -/
theorem toNat_growth (retry : Nat) : (growth retry).toNat = min (2 ^ retry) (2 ^ 32 - 1) := by
  unfold growth
  split
  · next hretry =>
    have hpower : 2 ^ retry ≤ 2 ^ 31 := Nat.pow_le_pow_right (by decide) (by omega)
    have hlimit : 2 ^ retry < 2 ^ 32 := hpower.trans_lt (by decide)
    rw [Nat.pow_eq, UInt32.toNat_ofNat_of_lt' hlimit, min_eq_left (Nat.le_sub_one_of_lt hlimit)]
  · next hretry =>
    have hpower : 2 ^ 32 ≤ 2 ^ retry := Nat.pow_le_pow_right (by decide) (by omega)
    rw [min_eq_right ((Nat.sub_le _ 1).trans hpower)]
    rfl

/-- **A limit beyond the cap does not show under it.** -/
theorem min_mul_limited (b power : Nat) :
    min (b * min power (2 ^ 32 - 1)) maxPause = min (b * power) maxPause := by
  rcases Nat.eq_zero_or_pos b with rfl | hb
  · rw [Nat.zero_mul, Nat.zero_mul]
  rcases le_total power (2 ^ 32 - 1) with hpower | hpower
  · rw [min_eq_left hpower]
  · have hlimit : maxPause ≤ b * (2 ^ 32 - 1) :=
      le_mul_of_one_le_of_le (Nat.succ_le_of_lt hb) (by decide)
    have hmul : b * (2 ^ 32 - 1) ≤ b * power := Nat.mul_le_mul_left b hpower
    rw [min_eq_right hpower, min_eq_right hlimit, min_eq_right (hlimit.trans hmul)]

/-- **How long a delay is**, to the nanosecond. -/
theorem total_delay (b : UInt64) (retry : Nat) :
    (delay b retry).total = min (b.toNat * 2 ^ retry) maxPause * 1000000 := by
  have hcap : (UInt64.ofNat maxPause).toNat = maxPause := by decide
  calc (delay b retry).total
      = min (min (b.toNat * 1000000 * (growth retry).toNat) Duration.longest.total)
          (maxPause * 1000000) := by
        rw [delay, Duration.total_shorter, Duration.total_times, Duration.total_ofMillis,
          Duration.total_ofMillis, hcap]
    _ = min (b.toNat * (growth retry).toNat) maxPause * 1000000 := by
        -- the longest duration is far beyond the cap
        have hlongest : maxPause * 1000000 ≤ Duration.longest.total := by decide
        rw [Nat.mul_right_comm, min_assoc, min_eq_right hlongest, Nat.mul_min_mul_right]
    _ = min (b.toNat * 2 ^ retry) maxPause * 1000000 := by
        rw [toNat_growth, min_mul_limited]

/-- **How long a pause is.** -/
theorem backoff_toNat (b : UInt64) (retry : Nat) :
    backoff b.toNat retry = min (b.toNat * 2 ^ retry) maxPause := by
  rw [backoff, UInt64.ofNat_toNat, Duration.millis_eq, total_delay,
    Nat.mul_div_cancel _ (by decide)]

/-- No pause is longer than the longest. -/
theorem backoff_le (base retry : Nat) : backoff base retry ≤ maxPause := by
  rw [backoff, Duration.millis_eq, total_delay, Nat.mul_div_cancel _ (by decide)]
  exact min_le_right _ _

/-- A longer base delay and more repetitions make no pause shorter. -/
theorem backoff_mono {b b' : UInt64} {retry retry' : Nat} (hb : b ≤ b')
    (hretry : retry ≤ retry') : backoff b.toNat retry ≤ backoff b'.toNat retry' := by
  rw [backoff_toNat, backoff_toNat]
  have hpower : 2 ^ retry ≤ 2 ^ retry' := Nat.pow_le_pow_right (by decide) hretry
  exact min_le_min_right _ (Nat.mul_le_mul (UInt64.le_iff_toNat_le.1 hb) hpower)

/-! ## The pauses of a request -/

theorem pauses_sentOnce (r : Request) (x : Exchange) : pauses (sentOnce r x) = [] := by
  unfold sentOnce measured
  cases Http.status? x with
  | none => rfl
  | some status => rfl

section Repeated

variable {milliseconds : Nat} {y : Exchange} {rest : Http.Log}

/-- A round that is not the last one holds one exchange and one pause. -/
theorem exchanges_repeated :
    exchanges (sentOnce r y ++ ⟨.count Metric.requestRetry.sample, ()⟩ ::
      ⟨.pause milliseconds, ()⟩ :: rest) = (r, y) :: exchanges rest := by
  rw [Http.exchanges_append, exchanges_sentOnce]
  rfl

/-- Between two requests there is one pause. -/
theorem pauses_repeated :
    pauses (sentOnce r y ++ ⟨.count Metric.requestRetry.sample, ()⟩ ::
      ⟨.pause milliseconds, ()⟩ :: rest) = milliseconds :: pauses rest := by
  rw [Http.pauses_append, pauses_sentOnce]
  rfl

end Repeated

/-- **There is one pause between two exchanges.** -/
theorem pauses_sendFrom (h : Gives (sendFrom base r retries allowed) log x) :
    ∃ n ≤ allowed, (exchanges log).length = n + 1 ∧
      pauses log = (List.range n).map fun i => backoff base (retries + i) := by
  have honce : (exchanges (sentOnce r x)).length = 0 + 1 := by rw [exchanges_sentOnce]; rfl
  induction allowed generalizing retries log with
  | zero =>
    obtain rfl := gives_sendFrom_zero.1 h
    exact ⟨0, le_rfl, honce, pauses_sentOnce r x⟩
  | succ allowed ih =>
    rcases gives_sendFrom_succ.1 h with ⟨-, rfl⟩ | ⟨y, rest, -, hrest, rfl⟩
    · exact ⟨0, Nat.zero_le _, honce, pauses_sentOnce r x⟩
    obtain ⟨n, hn, hlength, hpauses⟩ := ih hrest
    -- the pauses that follow are counted from the next one
    have hnext : ∀ i, retries + 1 + i = retries + (i + 1) := fun i => by omega
    refine ⟨n + 1, Nat.succ_le_succ hn, ?_, ?_⟩
    · rw [exchanges_repeated, List.length_cons, hlength]
    · rw [pauses_repeated, hpauses, List.range_succ_eq_map, List.map_cons, List.map_map]
      simp only [hnext]
      rfl

/-- The pauses of a request are those that its repetitions are due. -/
theorem pauses_send (h : Gives (client.send r) log x) :
    (exchanges log).length - 1 ≤ client.maxRetries ∧
      pauses log = (List.range ((exchanges log).length - 1)).map (backoff client.baseDelay) := by
  unfold send at h
  cases hfault : unsendable? r with
  | some fault =>
    rw [hfault] at h
    obtain ⟨rfl, -⟩ := Dialogue.gives_done.1 h
    exact ⟨Nat.zero_le _, rfl⟩
  | none =>
    rw [hfault] at h
    obtain ⟨n, hn, hlength, hpauses⟩ := pauses_sendFrom h
    rw [hlength, Nat.add_sub_cancel]
    exact ⟨hn, by simpa only [Nat.zero_add] using hpauses⟩

/-- They amount to no more than the longest pause for each repetition. -/
theorem sum_pauses_le (h : Gives (client.send r) log x) :
    (pauses log).sum ≤ maxPause * ((exchanges log).length - 1) := by
  obtain ⟨-, hpauses⟩ := pauses_send h
  have hle : ∀ t ∈ pauses log, t ≤ maxPause := by
    intro t ht
    rw [hpauses] at ht
    obtain ⟨i, -, rfl⟩ := List.mem_map.1 ht
    exact backoff_le client.baseDelay i
  have hlength : (pauses log).length = (exchanges log).length - 1 := by
    rw [hpauses, List.length_map, List.length_range]
  rw [Nat.mul_comm, ← hlength]
  exact List.sum_le_card_nsmul _ _ hle

/-- **Pauses are exact, and bounded.** For every base delay and every number
of repetitions, of sixty-four and of thirty-two bits, a delay is what
unbounded arithmetic makes of it, to the nanosecond, and so is the pause that
is made. It grows with both. Whatever comes of a request, it is repeated no
more often than is allowed; before each repetition the client waits, for the
first pause before the first one and so on; and all pauses together are no
longer than the cap for each repetition. -/
theorem pauses_bounded :
    (∀ (b : UInt64) (retry : UInt32),
      (delay b retry.toNat).total = min (b.toNat * 2 ^ retry.toNat) 30000 * 1000000 ∧
      backoff b.toNat retry.toNat = min (b.toNat * 2 ^ retry.toNat) 30000) ∧
    (∀ (b b' : UInt64) (retry retry' : UInt32), b ≤ b' → retry ≤ retry' →
      backoff b.toNat retry.toNat ≤ backoff b'.toNat retry'.toNat) ∧
    (∀ (client : Client) (r : Request) (log : Http.Log) (x : Exchange),
      Gives (client.send r) log x →
      let repetitions := (exchanges log).length - 1
      repetitions ≤ client.maxRetries ∧
      pauses log = (List.range repetitions).map (backoff client.baseDelay) ∧
      (pauses log).sum ≤ 30000 * repetitions) := by
  refine ⟨fun b retry => ⟨total_delay b retry.toNat, backoff_toNat b retry.toNat⟩, ?_, ?_⟩
  · intro b b' retry retry' hb hretry
    exact backoff_mono hb (UInt32.le_iff_toNat_le.1 hretry)
  · intro client r log x h
    obtain ⟨hallowed, hpauses⟩ := pauses_send h
    exact ⟨hallowed, hpauses, sum_pauses_le h⟩

end Client

/-! ### Delays beyond all limits

A client with the longest base delay there is, whose requests are answered
by errors until it gives up. -/

namespace Overloaded

def slowClient : Client := { Sample.client with baseDelay := UInt64.size - 1 }

/-- An answer that asks for patience. -/
def failed : Exchange := answers.get 1

/-- What becomes of a request of it. -/
def slowLog : Http.Log :=
  Client.patiently slowClient.baseDelay request 0 [failed, failed] ++
    Client.sentOnce request failed

/-- The server is busy, and the request may be repeated. -/
theorem not_final : ¬ Client.Final request failed :=
  Client.not_final_iff.2 ⟨by decide, Http.le_busyFor_iff.1 le_busyFor 1 (by decide)⟩

/-- The client gives up after two repetitions. -/
theorem gives_slowLog : Gives (slowClient.send request) slowLog failed := by
  have hsend : slowClient.send request =
      Client.sendFrom slowClient.baseDelay request 0 2 := rfl
  have hfailed : ∀ y ∈ [failed, failed], ¬ Client.Final request y := by
    simpa using not_final
  rw [hsend]
  exact Client.gives_sendFrom_of_busy le_rfl hfailed (.inl rfl)

end Overloaded

/-- **The longest base delay** comes to the longest pause at once. -/
theorem Client.pauses_bounded_overloaded :
    (500 : UInt64) ≤ 18446744073709551615 ∧ (3 : UInt32) ≤ 64 ∧
    backoff (500 : UInt64).toNat (3 : UInt32).toNat ≤
      backoff (18446744073709551615 : UInt64).toNat (64 : UInt32).toNat ∧
    (delay 18446744073709551615 (64 : UInt32).toNat).total = 30000 * 1000000 ∧
    Gives (Overloaded.slowClient.send Overloaded.request) Overloaded.slowLog Overloaded.failed ∧
    Http.pauses Overloaded.slowLog = [30000, 30000] ∧
    (Http.pauses Overloaded.slowLog).sum ≤ 60000 := by
  obtain ⟨hexact, hgrows, hsent⟩ := Client.pauses_bounded
  have hbase : (500 : UInt64) ≤ 18446744073709551615 := by decide
  have hretry : (3 : UInt32) ≤ 64 := by decide
  obtain ⟨-, hpauses, hsum⟩ := hsent _ _ _ _ Overloaded.gives_slowLog
  have hcapped : 30000 ≤ (18446744073709551615 : UInt64).toNat * 2 ^ (64 : UInt32).toNat := by
    decide
  refine ⟨hbase, hretry, hgrows _ _ _ _ hbase hretry, ?_, Overloaded.gives_slowLog, ?_, ?_⟩
  · rw [(hexact 18446744073709551615 64).1, min_eq_right hcapped]
  · rw [hpauses]
    decide
  · exact hsum

end TrafficGate
