/-
The fields of a template. A field names a key and may say how the value of
the key is laid out: `KEY:SPECIFIER` with
`[[fill]align][sign][#][0][width][,][.precision][type]`. The specifier is
the one of numbers, but all values are texts, so much of it is refused when
it is applied.
-/
import FlowScript.Template.Fault

namespace FlowScript

namespace Template

/-- Where a value stands in its width; `signed` pads between sign and digits. -/
inductive Align where
  | left
  | right
  | centre
  | signed
deriving DecidableEq, Repr

/-- The alignment a character stands for. -/
def Align.ofChar? : Char → Option Align
  | '<' => some .left
  | '>' => some .right
  | '^' => some .centre
  | '=' => some .signed
  | _ => none

/-- How a value is laid out. -/
structure Layout where
  fill : Char
  align : Align
  sign : Bool
  alternate : Bool
  width : Nat
  comma : Bool
  precision : Option Nat
  type : Option Char
deriving DecidableEq, Repr

/-- A value as it is. -/
def Layout.plain : Layout :=
  { fill := ' ', align := .left, sign := false, alternate := false, width := 0, comma := false,
    precision := none, type := none }

/-- A key and the layout of its value. -/
structure Field where
  key : String
  layout : Layout
deriving DecidableEq, Repr

namespace Layout

/-- Widths and precisions stay below this bound. -/
def bound : Nat := 0x8000000000000000

/-- Fill and alignment at the front, and what follows. A fill stands before
its alignment, and may be any character. -/
def readAlign : List Char → Option Char × Option Align × List Char
  | [] => (none, none, [])
  | [a] =>
    match Align.ofChar? a with
    | some align => (none, some align, [])
    | none => (none, none, [a])
  | f :: a :: cs =>
    match Align.ofChar? a, Align.ofChar? f with
    | some align, _ => (some f, some align, cs)
    | none, some align => (none, some align, a :: cs)
    | none, none => (none, none, f :: a :: cs)

/-- Whether one of some characters is at the front, and what follows it. -/
def readFlag (flags : List Char) : List Char → Bool × List Char
  | [] => (false, [])
  | c :: cs => if c ∈ flags then (true, cs) else (false, c :: cs)

/-- Digits at the front as a number, and what follows them. -/
def readNumber (tooLarge : Fault) (cs : List Char) : Except Fault (Option Nat × List Char) :=
  let ds := cs.takeWhile Char.isDigit
  let rest := cs.dropWhile Char.isDigit
  let n := Nat.ofDigitChars 10 ds 0
  if ds = [] then .ok (none, rest)
  else if n < bound then .ok (some n, rest)
  else .error tooLarge

/-- A point and digits at the front, and what follows them. -/
def readPrecision : List Char → Except Fault (Option Nat × List Char)
  | '.' :: cs => do
    let (precision, rest) ← readNumber .precisionTooLarge cs
    if precision = none then .error .noPrecision else .ok (precision, rest)
  | cs => .ok (none, cs)

def types : List Char := ['b', 'o', 'x', 'X', 'e', 'E', 'f', 'F', '%', 's', '?']

/-- The types of values that have thousands. -/
def commaTypes : List Char := ['e', 'f', 'E', '%', 'F']

/-- The type at the end of a specifier. -/
def readType : List Char → Except Fault (Option Char)
  | [] => .ok none
  | [c] => if 1 < c.utf8Size then .error .excess else if c ∈ types then .ok (some c) else .error (.unknownType c)
  | _ => .error .excess

/-- The layout that a specifier asks for. A zero before the width, where no
fill is given, fills with zeros after the sign. -/
def read (cs : List Char) : Except Fault Layout := do
  let (fill, align, cs) := readAlign cs
  let (sign, cs) := readFlag [' ', '+', '-'] cs
  let (alternate, cs) := readFlag ['#'] cs
  let (zero, cs) := if fill.isSome then (false, cs) else readFlag ['0'] cs
  let (width, cs) ← readNumber .widthTooLarge cs
  let (comma, cs) := readFlag [','] cs
  let (precision, cs) ← readPrecision cs
  let type ← readType cs
  match comma, type with
  | true, some c => if c ∈ commaTypes then pure () else .error (.commaType c)
  | _, _ => pure ()
  pure
    { fill := if zero then '0' else fill.getD ' '
      align := if zero then .signed else align.getD .left
      sign, alternate, width := width.getD 0, comma, precision, type }

/-- A text with `n` more characters of fill. -/
def pad (layout : Layout) (n : Nat) (cs : List Char) : Except Fault (List Char) :=
  if n = 0 then .ok cs
  else
    let fill := fun n => List.replicate n layout.fill
    match layout.align with
    | .left => .ok (cs ++ fill n)
    | .right => .ok (fill n ++ cs)
    | .centre => .ok (fill (n / 2) ++ cs ++ fill (n - n / 2))
    | .signed => .error .signPadding

/-- A text cut to the precision and padded to the width, both in characters. -/
def apply (layout : Layout) (value : List Char) : Except Fault (List Char) := do
  match layout.type with
  | some c => if c = 's' then pure () else .error (.notText c)
  | none => pure ()
  if layout.alternate then .error .alternate
  if layout.comma then .error .comma
  if layout.sign then .error .sign
  let cut := match layout.precision with
    | some n => value.take n
    | none => value
  layout.pad (layout.width - cut.length) cut

theorem read_nil : read [] = .ok plain := rfl

theorem apply_plain (value : List Char) : plain.apply value = .ok value := by
  simp [apply, plain, pad]

end Layout

/-- The field between two braces: a key up to the first colon, which must
not be empty, and the layout after it. -/
def Field.read (cs : List Char) : Except Fault Field :=
  let key := cs.takeWhile (· != ':')
  if key = [] then .error .noKey
  else do
    let layout ← Layout.read ((cs.dropWhile (· != ':')).drop 1)
    pure { key := String.ofList key, layout }

end Template

end FlowScript
