/-!
# Durations

A duration is a number of whole seconds, which has sixty-four bits, and
the nanoseconds that are left over. The range is not left by
multiplication: what would be longer is the longest duration. `total` is
what a duration amounts to, and each operation is described by it.
-/

namespace TrafficGate

/-- A length of time. -/
structure Duration where
  seconds : Nat
  nanoseconds : Nat
  seconds_lt : seconds < UInt64.size
  nanoseconds_lt : nanoseconds < 1000000000
  deriving DecidableEq, Repr

namespace Duration

/-- The longest one there is. -/
def longest : Duration where
  seconds := UInt64.size - 1
  nanoseconds := 999999999
  seconds_lt := by decide
  nanoseconds_lt := by decide

instance : Inhabited Duration := ⟨longest⟩

/-- So many milliseconds. -/
def ofMillis (milliseconds : UInt64) : Duration where
  seconds := milliseconds.toNat / 1000
  nanoseconds := milliseconds.toNat % 1000 * 1000000
  seconds_lt := Nat.lt_of_le_of_lt (Nat.div_le_self _ _) milliseconds.toNat_lt_size
  nanoseconds_lt := by omega

/-- Its whole milliseconds. -/
def millis (d : Duration) : Nat := d.seconds * 1000 + d.nanoseconds / 1000000

/-- So many times as long, or the longest one. The nanoseconds carry over
into the seconds. -/
def times (d : Duration) (factor : UInt32) : Duration :=
  let nanoseconds := d.nanoseconds * factor.toNat
  let seconds := d.seconds * factor.toNat + nanoseconds / 1000000000
  if h : seconds < UInt64.size then
    ⟨seconds, nanoseconds % 1000000000, h, Nat.mod_lt _ (by decide)⟩
  else longest

/-- The shorter one of two. -/
def shorter (d e : Duration) : Duration :=
  if e.seconds < d.seconds || (e.seconds = d.seconds && e.nanoseconds < d.nanoseconds) then e
  else d

/-! ## What they amount to -/

/-- All of it in nanoseconds. -/
def total (d : Duration) : Nat := d.seconds * 1000000000 + d.nanoseconds

theorem total_longest : longest.total = UInt64.size * 1000000000 - 1 := by decide

theorem total_ofMillis (milliseconds : UInt64) :
    (ofMillis milliseconds).total = milliseconds.toNat * 1000000 := by
  simp only [total, ofMillis]
  omega

theorem millis_eq (d : Duration) : d.millis = d.total / 1000000 := by
  simp only [total, millis]
  omega

/-- **Multiplication is exact as far as durations go.** -/
theorem total_times (d : Duration) (factor : UInt32) :
    (d.times factor).total = min (d.total * factor.toNat) longest.total := by
  have htotal : d.total * factor.toNat =
      d.seconds * factor.toNat * 1000000000 + d.nanoseconds * factor.toNat := by
    rw [total, Nat.add_mul, Nat.mul_right_comm]
  rw [htotal, total_longest]
  simp only [times]
  split
  · next hseconds =>
    simp only [total]
    omega
  · next hseconds =>
    rw [total_longest]
    omega

/-- Seconds are compared first, but that makes no difference. -/
theorem total_shorter (d e : Duration) : (d.shorter e).total = min d.total e.total := by
  have hd := d.nanoseconds_lt
  have he := e.nanoseconds_lt
  unfold shorter
  split
  · next h =>
    simp only [Bool.or_eq_true, Bool.and_eq_true, decide_eq_true_eq] at h
    simp only [total]
    omega
  · next h =>
    simp only [Bool.or_eq_true, Bool.and_eq_true, decide_eq_true_eq] at h
    simp only [total]
    omega

end Duration

end TrafficGate
