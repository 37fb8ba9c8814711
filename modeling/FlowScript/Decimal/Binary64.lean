/-
Binary floating-point numbers of 64 bits. A finite number is a sign and a
count of units of 2^-1074, the smallest step between two of them, so that
comparisons and rounding are integer arithmetic. `round` is the one place
where a number is made from a quotient: to the nearest, a tie to the even
neighbour, and to infinity from half a step above the largest.
-/
namespace FlowScript

/-- A 64-bit floating-point number; `finite` holds a count of units of 2^-1074. -/
inductive Binary64 where
  | nan
  | infinite (negative : Bool)
  | finite (negative : Bool) (units : Nat)
deriving DecidableEq, Repr

namespace Binary64

/-- The exponent of the unit: 2^-1074. -/
def unitExponent : Nat := 1074

/-- Where finite numbers end: 2^1024, which is 2^2098 units. -/
def overflowExponent : Nat := 2098

/-- The units from which on no finite number is left. -/
def overflowUnits : Nat := Nat.pow 2 overflowExponent

def zero : Binary64 := .finite false 0

/-- The integer nearest to `a / b`; of two, the even one. -/
def nearest (a b : Nat) : Nat :=
  let q := a / b
  let r := a % b
  if 2 * r < b then q
  else if b < 2 * r then q + 1
  else if q % 2 = 0 then q else q + 1

/-- The units between a number of `units` units and its next neighbour away
from zero: numbers have 53 binary digits. -/
def step (units : Nat) : Nat := Nat.pow 2 (units.log2 - 52)

/-- The number nearest to `numerator / denominator`, with the given sign. -/
def round (negative : Bool) (numerator denominator : Nat) : Binary64 :=
  let scaled := numerator * Nat.pow 2 unitExponent
  let s := step (scaled / denominator)
  let units := nearest scaled (denominator * s) * s
  if overflowUnits ≤ units then .infinite negative else .finite negative units

def ofNat (n : Nat) : Binary64 := round false n 1

def ofInt (n : Int) : Binary64 := round (decide (n < 0)) n.natAbs 1

/-- The number with its sign changed where `negative` asks for it. -/
def withSign (negative : Bool) : Binary64 → Binary64
  | .nan => .nan
  | .infinite s => .infinite (s != negative)
  | .finite s units => .finite (s != negative) units

def mul (x y : Binary64) : Binary64 :=
  match x, y with
  | .finite s a, .finite t b => round (s != t) (a * b) (Nat.pow 2 (2 * unitExponent))
  | .infinite s, .infinite t => .infinite (s != t)
  | .infinite s, .finite t b => if b = 0 then .nan else .infinite (s != t)
  | .finite s a, .infinite t => if a = 0 then .nan else .infinite (s != t)
  | _, _ => .nan

/-- The quotient, rounded; a number over zero is infinite. -/
def div (x y : Binary64) : Binary64 :=
  match x, y with
  | .finite s a, .finite t b =>
    if b = 0 then if a = 0 then .nan else .infinite (s != t)
    else round (s != t) a b
  | .finite s _, .infinite t => .finite (s != t) 0
  | .infinite s, .finite t _ => .infinite (s != t)
  | _, _ => .nan

def isFinite : Binary64 → Bool
  | .finite .. => true
  | _ => false

/-- Whether the number is below zero; the negative zero is not. -/
def isNegative : Binary64 → Bool
  | .finite s units => s && decide (0 < units)
  | .infinite s => s
  | .nan => false

def isPositive : Binary64 → Bool
  | .finite s units => !s && decide (0 < units)
  | .infinite s => !s
  | .nan => false

def isZero : Binary64 → Bool
  | .finite _ units => decide (units = 0)
  | _ => false

@[simp] theorem nearest_one (a : Nat) : nearest a 1 = a := by
  simp [nearest, Nat.mod_one]

theorem overflowUnits_pos : 0 < overflowUnits := by
  unfold overflowUnits
  generalize overflowExponent = n
  rw [Nat.pow_eq]
  exact Nat.two_pow_pos n

theorem nearest_zero (b : Nat) : nearest 0 b = 0 := by
  simp [nearest]

@[simp] theorem round_zero (negative : Bool) (d : Nat) : round negative 0 d = .finite negative 0 := by
  have h : ¬ overflowUnits ≤ 0 := Nat.not_le.2 overflowUnits_pos
  simp [round, nearest_zero, h]

end Binary64

end FlowScript
