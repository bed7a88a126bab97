/-!
# Binary floating point of 64 bits

A finite number is a sign, a mantissa below 2^53 and a power of two. All
arithmetic here is exact arithmetic on naturals followed by one rounding
(`ofRatio?`): to the nearest number of the format, a tie to the even
mantissa, and to nothing when the value lies above the greatest one.
-/

namespace TrafficGate

namespace Decimal

/-- `± mantissa · 2 ^ exponent`. -/
structure Binary64 where
  negative : Bool
  mantissa : Nat
  exponent : Int
  deriving DecidableEq, Repr, Inhabited

namespace Binary64

/-- The least exponent of the format. -/
def minExponent : Int := -1074

/-- The greatest exponent of a full mantissa. -/
def maxExponent : Int := 971

/-- Zero with a sign. -/
def zero (negative : Bool) : Binary64 := ⟨negative, 0, minExponent⟩

def isZero (x : Binary64) : Bool := x.mantissa = 0

def neg (x : Binary64) : Binary64 := { x with negative := !x.negative }

/-- The magnitude as a quotient of naturals. -/
def ratio (x : Binary64) : Nat × Nat :=
  if 0 ≤ x.exponent then (x.mantissa * Nat.pow 2 x.exponent.toNat, 1)
  else (x.mantissa, Nat.pow 2 (-x.exponent).toNat)

/-- The greatest `k` with `2 ^ k ≤ num / den`, for positive arguments. -/
def log2Ratio (num den : Nat) : Int :=
  let k : Int := (Nat.log2 num : Int) - Nat.log2 den
  let reaches :=
    if 0 ≤ k then den * Nat.pow 2 k.toNat ≤ num else den ≤ num * Nat.pow 2 (-k).toNat
  if reaches then k else k - 1

/-- The quotient to the nearest natural, a tie to the even one. -/
def roundDiv (num den : Nat) : Nat :=
  let q := num / den
  let r := num % den
  if 2 * r < den then q else if den < 2 * r then q + 1 else q + q % 2

/-- The number of the format nearest to `num / den`. -/
def ofRatio? (negative : Bool) (num den : Nat) : Option Binary64 :=
  if num = 0 then some (zero negative)
  else
    let e := max (log2Ratio num den - 52) minExponent
    let m :=
      if 0 ≤ e then roundDiv num (den * Nat.pow 2 e.toNat)
      else roundDiv (num * Nat.pow 2 (-e).toNat) den
    let (m, e) := if m = Nat.pow 2 53 then (Nat.pow 2 52, e + 1) else (m, e)
    if maxExponent < e then none else some ⟨negative, m, e⟩

/-- The product, rounded; the sign is that of `x`. -/
def scale? (x y : Binary64) : Option Binary64 :=
  let (a, b) := x.ratio
  let (c, d) := y.ratio
  ofRatio? x.negative (a * c) (b * d)

/-- The quotient, rounded; the sign is that of `x`. -/
def shrink? (x y : Binary64) : Option Binary64 :=
  let (a, b) := x.ratio
  let (c, d) := y.ratio
  ofRatio? x.negative (a * d) (b * c)

/-- The number nearest to a power of ten. -/
def tenPow (k : Nat) : Binary64 := (ofRatio? false (Nat.pow 10 k) 1).getD (zero false)

/-- A decimal significand times a power of ten, in at most five rounded
steps: the significand is rounded first, then multiplied or divided by
the nearest number to a power of ten of at most 10^308. -/
def ofDecimal? (significand : Nat) (exponent : Int) : Option Binary64 :=
  go 5 ((ofRatio? false significand 1).getD (zero false)) exponent
where
  go : Nat → Binary64 → Int → Option Binary64
    | 0, x, _ => some x
    | steps + 1, x, e =>
      if e.natAbs ≤ 308 then
        if 0 ≤ e then scale? x (tenPow e.natAbs) else shrink? x (tenPow e.natAbs)
      else if x.isZero then some x
      else if 0 ≤ e then none
      else go steps ((shrink? x (tenPow 308)).getD (zero false)) (e + 308)

end Binary64

end Decimal

end TrafficGate
