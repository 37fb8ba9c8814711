/-
The shortest decimal digits of a floating-point number: the fewest digits of
which some decimal lies among the reals that round to the number, and of the
decimals with that many digits the one nearest to it. A tie between two goes
the way the caller asks.
-/
import FlowScript.Decimal.Binary64

namespace FlowScript

namespace Decimal

/-- Where a tie between two decimals goes: away from zero, or to the even last digit. -/
inductive Tie where
  | away
  | even
deriving DecidableEq, Repr

/-- The reals that round to one number, between `low` and `high`, and the
number itself, all in units of `1 / scale`. The ends belong to it if `closed`. -/
structure Interval where
  low : Nat
  value : Nat
  high : Nat
  scale : Nat
  closed : Bool

/-- The reals that round to `units`, a positive number of units of 2^-1074,
in quarters of a unit: half a step to either side, or only a quarter below a
power of two, where the steps below are half as long. -/
def Interval.ofUnits (units : Nat) : Interval :=
  let step := Binary64.step units
  let significand := units / step
  let below := if significand = 0x10000000000000 ∧ 1 < step then step else 2 * step
  { low := 4 * units - below, value := 4 * units, high := 4 * units + 2 * step,
    scale := Nat.pow 2 (Binary64.unitExponent + 2), closed := significand % 2 = 0 }

/-- Whether the decimal `n` times `numerator / denominator` lies in the interval. -/
def Interval.holds (i : Interval) (n numerator denominator : Nat) : Bool :=
  let x := n * numerator * i.scale
  if i.closed then i.low * denominator ≤ x && x ≤ i.high * denominator
  else i.low * denominator < x && x < i.high * denominator

/-- The decimal of the grid of step `numerator / denominator` that lies in
the interval and is nearest to its number. -/
def Interval.onGrid? (i : Interval) (tie : Tie) (numerator denominator : Nat) : Option Nat :=
  let a := i.value * denominator
  let b := numerator * i.scale
  let down := a / b
  let rest := a % b
  let up := down + 1
  let upFirst := b < 2 * rest || (2 * rest == b && (tie == .away || down % 2 == 1))
  let first := if upFirst then up else down
  let second := if upFirst then down else up
  if 0 < first && i.holds first numerator denominator then some first
  else if 0 < second && i.holds second numerator denominator then some second
  else none

/-- A power of ten as a fraction. -/
def powerOfTen (e : Int) : Nat × Nat :=
  if 0 ≤ e then (Nat.pow 10 e.toNat, 1) else (1, Nat.pow 10 (-e).toNat)

/-- The decimal exponent of the leading digit of `value / scale`, at most one off. -/
def leadingExponent (value scale : Nat) : Int :=
  let guess : Int := ((value.log2 : Int) - scale.log2) * 30103 / 100000
  let reaches := fun e : Int =>
    let p := powerOfTen e
    decide (p.1 * scale ≤ value * p.2)
  if reaches (guess + 1) then guess + 1 else if reaches guess then guess else guess - 1

/-- The first of the grids of 1, 2, … digits that has a decimal in the
interval: the decimal as an integer and the exponent of its last digit. -/
def Interval.firstGrid (i : Interval) (tie : Tie) (leading : Int) : Nat → Nat → Option (Nat × Int)
  | 0, _ => none
  | fuel + 1, digits =>
    let e := leading - digits
    let p := powerOfTen e
    match i.onGrid? tie p.1 p.2 with
    | some n => some (n, e)
    | none => i.firstGrid tie leading fuel (digits + 1)

/-- The digits of a positive number and the exponent of the last of them.
Seventeen digits always suffice. -/
def shortest (tie : Tie) (units : Nat) : Nat × Int :=
  let i := Interval.ofUnits units
  (i.firstGrid tie (leadingExponent i.value i.scale) 18 0).getD (0, 0)

end Decimal

end FlowScript
