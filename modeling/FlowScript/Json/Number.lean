/-
Numbers of documents as text. An integer is written plainly, a floating-point
number with its shortest digits. A token that is an integer of 64 bits is
read as one; any other is read as a significand and a power of ten, each
rounded to a floating-point number before they are put together.
-/
import FlowScript.Decimal.Notation
import FlowScript.Decimal.Reading
import FlowScript.Json.Basic

namespace FlowScript

namespace Json

namespace Number

/-- Positional from 0.00001 to below 10^16, else with a signed exponent; a tie goes
to the even digit. What is not finite has no number to stand for it. -/
def layout : Decimal.Notation :=
  { least := -5, greatest := 15, plus := ['+'], tie := .even,
    nan := "null".toList, infinity := "null".toList }

def token : Number → List Char
  | .int n => Decimal.integerText n
  | .real x => layout.text x

/-- Where integers of 64 bits end. -/
def wordBound : Nat := 0x10000000000000000

/-- Where negative integers of 64 bits end. -/
def negativeBound : Nat := 0x8000000000000000

/-- Adds digits to a significand as long as it stays below 2^64: the
significand and how many digits were added. -/
def appendDigits (significand : Nat) : List Char → Nat × Nat
  | [] => (significand, 0)
  | d :: ds =>
    let next := significand * 10 + (d.toNat - '0'.toNat)
    if next < wordBound then
      let (s, n) := appendDigits next ds
      (s, n + 1)
    else (significand, 0)

/-- The greatest exponent that is read; beyond it a number is zero or too large. -/
def exponentBound : Nat := 0x80000000

/-- The floating-point number nearest to a power of ten. -/
def power (n : Nat) : Binary64 := Binary64.ofNat (Nat.pow 10 n)

/-- Divides by ten to the `n`, at most 10^308 at a time. -/
def divideByPower (x : Binary64) (n : Nat) : Binary64 :=
  if n ≤ 308 then x.div (power n)
  else if x.isZero then x
  else divideByPower (x.div (power 308)) (n - 308)
termination_by n

/-- A significand times a power of ten, rounded before and after; none when
it is too large for a floating-point number. -/
def scale (significand : Nat) (e : Int) : Option Binary64 :=
  let x := Binary64.ofNat significand
  if e < 0 then some (divideByPower x (-e).toNat)
  else if 308 < e then if x.isZero then some x else none
  else
    let y := x.mul (power e.toNat)
    if y.isFinite then some y else none

/-- The parts of a token: its sign, the digits before and after the point,
and the sign and digits of the exponent. `plain` tells an integer. -/
structure Parts where
  negative : Bool
  whole : List Char
  fraction : List Char
  down : Bool
  exponent : List Char
  plain : Bool

/-- Takes a token apart. -/
def parts (cs : List Char) : Parts :=
  let (negative, body) := match cs with
    | '-' :: cs => (true, cs)
    | cs => (false, cs)
  let whole := body.takeWhile Char.isDigit
  let rest := body.dropWhile Char.isDigit
  let (fraction, rest) := match rest with
    | '.' :: cs => (cs.takeWhile Char.isDigit, cs.dropWhile Char.isDigit)
    | cs => ([], cs)
  let (down, exponent) := Decimal.takeSign (rest.drop 1)
  { negative, whole, fraction, down, exponent, plain := fraction.isEmpty && rest.isEmpty }

/-- The value of a number with a fraction or an exponent, or beyond 64 bits. -/
def Parts.real? (p : Parts) : Option Binary64 :=
  let (s₁, n₁) := appendDigits 0 p.whole
  let (s, n₂) := appendDigits s₁ p.fraction
  let shift : Int := (p.whole.length - n₁ : Nat) - n₂
  let given := Decimal.ofDigits p.exponent
  let magnitude :=
    if exponentBound ≤ given then
      if s = 0 ∨ p.down then some Binary64.zero else none
    else scale s (shift + if p.down then -(given : Int) else given)
  magnitude.map (Binary64.withSign p.negative)

/-- The number a token stands for; none when it is too large. A negative zero
is a floating-point number. -/
def ofToken (cs : List Char) : Option Number :=
  let p := parts cs
  let n := Decimal.ofDigits p.whole
  if p.plain && !p.negative && n < wordBound then some (.int n)
  else if p.plain && p.negative && 0 < n && n ≤ negativeBound then some (.int (-n))
  else p.real?.map .real

end Number

end Json

end FlowScript
