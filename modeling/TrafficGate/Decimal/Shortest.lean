import TrafficGate.Decimal.Binary64
/-!
# The shortest decimal text of a number

`digits` finds the fewest decimal digits that read back as the number:
for one digit, two digits and so on it tries the two neighbours of the
number on that decimal grid, and of two that read back takes the nearer.
`text` then writes them: positionally while the leading digit stands for
a power of ten between 10^-5 and 10^15, always with a point and a digit
after it, and otherwise with a signed power of ten.
-/

namespace TrafficGate

namespace Decimal

/-- Digits as one natural, and the power of ten of the last of them. -/
structure Digits where
  value : Nat
  power : Int
  deriving DecidableEq, Repr, Inhabited

namespace Digits

/-- The magnitude as a quotient of naturals. -/
def ratio (d : Digits) : Nat × Nat :=
  if 0 ≤ d.power then (d.value * Nat.pow 10 d.power.toNat, 1)
  else (d.value, Nat.pow 10 (-d.power).toNat)

/-- Whether the digits read back as the magnitude of `x`. -/
def readsBack (x : Binary64) (d : Digits) : Bool :=
  let (num, den) := d.ratio
  Binary64.ofRatio? x.negative num den == some x

end Digits

/-- The greatest `k` with `10 ^ k ≤ num / den`, found by stepping up from
below. -/
def log10Ratio (num den : Nat) : Int :=
  go 700 (-330)
where
  go : Nat → Int → Int
    | 0, k => k
    | steps + 1, k =>
      let up := k + 1
      let reaches :=
        if 0 ≤ up then den * Nat.pow 10 up.toNat ≤ num else den ≤ num * Nat.pow 10 (-up).toNat
      if reaches then go steps up else k

/-- The neighbours of `num / den` among the multiples of `10 ^ power`, the
nearer first. -/
def neighbours (num den : Nat) (power : Int) : List Digits :=
  let (a, b) :=
    if 0 ≤ power then (num, den * Nat.pow 10 power.toNat)
    else (num * Nat.pow 10 (-power).toNat, den)
  let q := a / b
  let r := a % b
  if 2 * r ≤ b then [⟨q, power⟩, ⟨q + 1, power⟩] else [⟨q + 1, power⟩, ⟨q, power⟩]

/-- Without zeros at the end. -/
def trim : Nat → Digits → Digits
  | 0, d => d
  | steps + 1, d =>
    if d.value ≠ 0 && d.value % 10 = 0 then trim steps ⟨d.value / 10, d.power + 1⟩ else d

/-- The fewest digits that read back as `x`. -/
def digits (x : Binary64) : Digits :=
  let (num, den) := x.ratio
  let top := log10Ratio num den
  let found := (List.range 17).findSome? fun (n : Nat) =>
    (neighbours num den (top - (n : Int))).find? (·.readsBack x)
  trim 17 (found.getD ⟨0, 0⟩)

private def repeated (n : Nat) (c : Char) : String := String.ofList (List.replicate n c)

/-- The text of a number. -/
def text (x : Binary64) : String :=
  let sign := if x.negative then "-" else ""
  if x.isZero then sign ++ "0.0"
  else
    let d := digits x
    let ds := toString d.value
    let lead : Int := d.power + ds.length - 1
    let body :=
      if -5 ≤ lead && lead ≤ 15 then
        if 0 ≤ d.power then ds ++ repeated d.power.toNat '0' ++ ".0"
        else if 0 ≤ lead then
          let whole := lead.toNat + 1
          String.ofList (ds.toList.take whole) ++ "." ++ String.ofList (ds.toList.drop whole)
        else "0." ++ repeated (-lead - 1).toNat '0' ++ ds
      else
        let rest := ds.toList.drop 1
        let mantissa :=
          String.ofList (ds.toList.take 1) ++
            (if rest.isEmpty then "" else "." ++ String.ofList rest)
        mantissa ++ (if 0 ≤ lead then "e+" else "e-") ++ toString lead.natAbs
    sign ++ body

end Decimal

end TrafficGate
