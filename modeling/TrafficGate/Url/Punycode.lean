/-!
# Host names beyond ASCII

A label of a host name that holds characters beyond ASCII is written with
its ASCII characters first and the others as a number: the label's code
points in rising order, each with the places it is to be put in, as
distances in a mixed base that adapts to the label.
-/

namespace TrafficGate

namespace Punycode

/-- A digit below thirty-six: letters first. -/
def digit (d : Nat) : Char := if d < 26 then Char.ofNat (97 + d) else Char.ofNat (22 + d)

/-- Where the digit in place `k` ends a number. -/
def threshold (k bias : Nat) : Nat :=
  if k ≤ bias then 1 else if bias + 26 ≤ k then 26 else k - bias

theorem threshold_pos (k bias : Nat) : 1 ≤ threshold k bias := by
  unfold threshold
  split
  · omega
  · split <;> omega

/-- Divides by thirty-five until the number is small. -/
def shrink (delta k : Nat) : Nat × Nat :=
  if 455 < delta then shrink (delta / 35) (k + 36) else (delta, k)
termination_by delta
decreasing_by exact Nat.div_lt_self (by omega) (by omega)

/-- The bias after a distance. -/
def adapt (delta count : Nat) (isFirst : Bool) : Nat :=
  let delta := if isFirst then delta / 700 else delta / 2
  let (delta, k) := shrink (delta + delta / count) 0
  k + 36 * delta / (delta + 38)

/-- A distance in digits. -/
def digits (bias k q : Nat) : List Char :=
  let t := threshold k bias
  if q < t then [digit q]
  else digit (t + (q - t) % (36 - t)) :: digits bias (k + 36) ((q - t) / (36 - t))
termination_by q
decreasing_by
  have := threshold_pos k bias
  exact Nat.lt_of_le_of_lt (Nat.div_le_self _ _) (by omega)

/-- What has been written of a label. -/
structure Progress where
  written : List Char
  delta : Nat
  bias : Nat
  count : Nat

/-- Passes one character of the label on the way to the code point `m`. -/
def pass (basic m : Nat) (s : Progress) (c : Char) : Progress :=
  if c.toNat < m then { s with delta := s.delta + 1 }
  else if c.toNat = m then
    { written := s.written ++ digits s.bias 36 s.delta
      delta := 0
      bias := adapt s.delta (s.count + 1) (s.count = basic)
      count := s.count + 1 }
  else s

/-- Puts in the code points one after the other, beginning at `n`. -/
def putIn (label : List Char) (basic : Nat) : List Nat → Nat → Progress → Progress
  | [], _, s => s
  | m :: rest, n, s =>
    let s := { s with delta := s.delta + (m - n) * (s.count + 1) }
    let s := label.foldl (pass basic m) s
    putIn label basic rest (m + 1) { s with delta := s.delta + 1 }

/-- The ASCII form of a label. -/
def label (cs : List Char) : List Char :=
  if cs.all fun c => c.toNat < 0x80 then cs
  else
    let basic := cs.filter fun c => c.toNat < 0x80
    let others := ((cs.filter fun c => 0x80 ≤ c.toNat).map Char.toNat).mergeSort.eraseDups
    let start := if basic.isEmpty then [] else basic ++ ['-']
    "xn--".toList ++ (putIn cs basic.length others 0x80 ⟨start, 0, 72, basic.length⟩).written

end Punycode

end TrafficGate
