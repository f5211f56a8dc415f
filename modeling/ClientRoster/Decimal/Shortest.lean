/-!
# `ClientRoster.Decimal.Shortest` — the fewest digits that read back

A positive floating-point number is `m · 2^q`. The real numbers that round to it form an interval around it, ends
included when `m` is even. Of the decimal grids, from the coarsest to the finest, the first with a point in the
interval gives the fewest digits; of two points the nearer is taken, and of two equally near the even one.

## Contents
- `Decimal`: digits and a power of ten.
- `Dyadic`, `Dyadic.ofBits`: a number as mantissa and exponent.
- `Dyadic.interval`: what rounds to it, in quarters of its unit in the last place.
- `Decimal.shortest`.
-/

namespace ClientRoster

/-- A decimal `digits · 10^exponent`. -/
structure Decimal where
  digits : Nat
  exponent : Int
  deriving DecidableEq, Repr

namespace Decimal

/-- The number `mantissa · 2^exponent`; `binade` says that the mantissa is the least of its exponent, so that the
number below lies half as far away as the one above. -/
structure Dyadic where
  mantissa : Nat
  exponent : Int
  binade : Bool
  deriving DecidableEq, Repr

namespace Dyadic

/-- The bit that is set in negative numbers. -/
def signBit : Nat := Nat.pow 2 63

/-- How many values the fraction of a number has. -/
def fractionCount : Nat := Nat.pow 2 52

/-- How many values the exponent of a number has. -/
def exponentCount : Nat := Nat.pow 2 11

/-- The absolute value of a finite number from its bits. -/
def ofBits (bits : Nat) : Dyadic :=
  let fraction : Nat := bits % fractionCount
  let biased : Nat := bits / fractionCount % exponentCount
  if biased = 0 then ⟨fraction, -1074, false⟩
  else ⟨fractionCount + fraction, (biased : Int) - 1075, fraction = 0 && 1 < biased⟩

/-- The ends of the interval that rounds to the number, in quarters of its unit. -/
def interval (d : Dyadic) : Nat × Nat :=
  (4 * d.mantissa - (if d.binade then 1 else 2), 4 * d.mantissa + 2)

/-- Does a number of quarters, over a common scale, round to `d`? -/
def holds (d : Dyadic) (scale value : Nat) : Bool :=
  let (low, high) := d.interval
  if d.mantissa % 2 = 0 then low * scale ≤ value && value ≤ high * scale
  else low * scale < value && value < high * scale

end Dyadic

/-- The point of the grid `10^k` that reads back as `d`, if there is one. Everything is scaled to whole numbers: a
quarter of the unit of `d` counts `unit`, and a step of the grid counts `step`. -/
def onGrid? (d : Dyadic) (k : Int) : Option Decimal :=
  let unit := Nat.pow 2 (d.exponent - 2).toNat * Nat.pow 10 (-k).toNat
  let step := Nat.pow 2 (2 - d.exponent).toNat * Nat.pow 10 k.toNat
  let value := 4 * d.mantissa * unit
  let below := value / step
  let toBelow := value - below * step
  let toAbove := (below + 1) * step - value
  let lowHolds := d.holds unit (below * step)
  let highHolds := d.holds unit ((below + 1) * step)
  if lowHolds && (!highHolds || toBelow < toAbove || (toBelow = toAbove && below % 2 = 0)) then some ⟨below, k⟩
  else if highHolds then some ⟨below + 1, k⟩
  else none

/-- The grids from the coarsest that can matter to the finest that can. -/
def grids : List Int := (List.range 634).map fun (i : Nat) => 309 - (i : Int)

/-- The decimal with the fewest digits that reads back as `d`. -/
def shortest (d : Dyadic) : Decimal :=
  (grids.findSome? (onGrid? d)).getD ⟨0, 0⟩

end Decimal

end ClientRoster
