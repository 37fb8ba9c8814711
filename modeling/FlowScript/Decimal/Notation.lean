/-
How a floating-point number is written out: its shortest digits in positional
notation within a range of exponents, in exponent notation outside it. What
differs between formats is one value of `Notation`.
-/
import FlowScript.Decimal.Shortest
import FlowScript.Text.Blank

namespace FlowScript

namespace Decimal

/-- A format for floating-point numbers. -/
structure Notation where
  /-- The least exponent of a leading digit written positionally. -/
  least : Int
  /-- The greatest exponent of a leading digit written positionally. -/
  greatest : Int
  /-- What a non-negative exponent begins with. -/
  plus : List Char
  /-- Where a tie between two shortest decimals goes. -/
  tie : Tie
  nan : List Char
  infinity : List Char

def digits (n : Nat) : List Char := Nat.toDigits 10 n

def integerText (n : Int) : List Char :=
  if n < 0 then '-' :: digits n.natAbs else digits n.natAbs

/-- Digits with the point after the one of exponent zero, where `leading` is
the exponent of the first; at least one digit stands on either side of it. -/
def positional (ds : List Char) (leading : Int) : List Char :=
  if leading < 0 then '0' :: '.' :: List.replicate (-leading - 1).toNat '0' ++ ds
  else
    let whole := leading.toNat + 1
    if ds.length ≤ whole then ds ++ List.replicate (whole - ds.length) '0' ++ ['.', '0']
    else ds.take whole ++ '.' :: ds.drop whole

namespace Notation

/-- Digits with the point after the first, and the exponent of that one. -/
def exponential (n : Notation) (ds : List Char) (leading : Int) : List Char :=
  let mantissa := if ds.length ≤ 1 then ds else ds.take 1 ++ '.' :: ds.drop 1
  mantissa ++ 'e' :: (if leading < 0 then [] else n.plus) ++ integerText leading

/-- The text of a positive decimal times a power of ten. -/
def scaled (n : Notation) (decimal : Nat) (e : Int) : List Char :=
  let all := digits decimal
  let leading := e + all.length - 1
  let ds := Text.dropEnd (· == '0') all
  if n.least ≤ leading ∧ leading ≤ n.greatest then positional ds leading
  else n.exponential ds leading

/-- The text of a positive number of units of 2^-1074. -/
def magnitude (n : Notation) (units : Nat) : List Char :=
  let nearest := shortest n.tie units
  n.scaled nearest.1 nearest.2

def text (n : Notation) : Binary64 → List Char
  | .nan => n.nan
  | .infinite s => (if s then ['-'] else []) ++ n.infinity
  | .finite s units =>
    (if s then ['-'] else []) ++ (if units = 0 then ['0', '.', '0'] else n.magnitude units)

end Notation

end Decimal

end FlowScript
