/-
Reading numbers that people write. `readReal` takes a sign, digits with an
optional point and an optional exponent, or the words inf, infinity and nan;
the value is rounded once. `readNatural` takes digits with an optional plus
sign, below a bound.
-/
import FlowScript.Decimal.Binary64

namespace FlowScript

namespace Decimal

def ofDigits (ds : List Char) : Nat := Nat.ofDigitChars 10 ds 0

/-- A sign at the front, whether it is a minus, and what follows it. -/
def takeSign : List Char → Bool × List Char
  | '-' :: cs => (true, cs)
  | '+' :: cs => (false, cs)
  | cs => (false, cs)

/-- The number nearest to `significand` times ten to the `e`. Far from the
range of the format the answer needs no power of ten. -/
def scaled (negative : Bool) (significand : Nat) (e : Int) : Binary64 :=
  if significand = 0 then .finite negative 0
  else if 400 < e then .infinite negative
  else if e + significand.log2 < -1200 then .finite negative 0
  else if 0 ≤ e then Binary64.round negative (significand * Nat.pow 10 e.toNat) 1
  else Binary64.round negative significand (Nat.pow 10 (-e).toNat)

/-- The exponent at the end of a number: nothing, or `e` and an integer. -/
def readExponent : List Char → Option Int
  | [] => some 0
  | c :: cs =>
    if c = 'e' ∨ c = 'E' then
      let (negative, ds) := takeSign cs
      if ds ≠ [] ∧ ds.all Char.isDigit then
        some (if negative then -(ofDigits ds : Int) else ofDigits ds)
      else none
    else none

/-- A number written with digits, without its sign. -/
def readUnsigned (negative : Bool) (cs : List Char) : Option Binary64 :=
  let whole := cs.takeWhile Char.isDigit
  let rest := cs.dropWhile Char.isDigit
  let (fraction, rest) :=
    match rest with
    | '.' :: rest => (rest.takeWhile Char.isDigit, rest.dropWhile Char.isDigit)
    | rest => ([], rest)
  if whole = [] ∧ fraction = [] then none
  else (readExponent rest).map fun e =>
    scaled negative (ofDigits (whole ++ fraction)) (e - fraction.length)

/-- A real number: digits or one of the words for infinity and not-a-number. -/
def readReal (cs : List Char) : Option Binary64 :=
  let (negative, body) := takeSign cs
  let word := body.map Char.toLower
  if word = "inf".toList ∨ word = "infinity".toList then some (.infinite negative)
  else if word = "nan".toList then some .nan
  else readUnsigned negative body

/-- A natural number below `bound`. -/
def readNatural (bound : Nat) (cs : List Char) : Option Nat :=
  let ds := match cs with
    | '+' :: cs => cs
    | cs => cs
  if ds ≠ [] ∧ ds.all Char.isDigit ∧ ofDigits ds < bound then some (ofDigits ds) else none

end Decimal

end FlowScript
