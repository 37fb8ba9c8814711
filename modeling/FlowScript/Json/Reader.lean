/-
Reading documents. `readTree` reads one document and nothing after it, with
numbers as their tokens, and refuses brackets nested deeper than it is told;
`read` then gives numbers their values and puts objects in order, the last
member of one name counting. There is one way to fail: the text is no
document.
-/
import FlowScript.Json.Style

namespace FlowScript

namespace Json

/-- The blanks between tokens. -/
def isSpace (c : Char) : Bool := c = ' ' ∨ c = '\n' ∨ c = '\r' ∨ c = '\t'

def skip (cs : List Char) : List Char := cs.dropWhile isSpace

/-- A notation that can be read: how it is written, and how one character
between quotes is read. -/
structure Dialect where
  style : Style
  readChar : List Char → Option (Char × List Char)

/-- A word at the front. -/
def readWord {α : Type} (word : List Char) (meaning : α) (cs : List Char) : Option (α × List Char) :=
  if word.isPrefixOf cs then some (meaning, cs.drop word.length) else none

/-- Digits at the front, at least one. -/
def readDigits (cs : List Char) : Option (List Char × List Char) :=
  match cs.takeWhile Char.isDigit with
  | [] => none
  | ds => some (ds, cs.dropWhile Char.isDigit)

/-- The digits before the point: a zero stands alone. -/
def readWhole : List Char → Option (List Char × List Char)
  | '0' :: cs => some (['0'], cs)
  | cs => readDigits cs

/-- A point and digits, or nothing. -/
def readFraction : List Char → Option (List Char × List Char)
  | '.' :: cs => (readDigits cs).map fun (ds, rest) => ('.' :: ds, rest)
  | cs => some ([], cs)

/-- An exponent with its letter and sign, or nothing. -/
def readExponent : List Char → Option (List Char × List Char)
  | [] => some ([], [])
  | c :: cs =>
    if c = 'e' ∨ c = 'E' then
      match cs with
      | '+' :: rest => (readDigits rest).map fun (ds, rest) => (c :: '+' :: ds, rest)
      | '-' :: rest => (readDigits rest).map fun (ds, rest) => (c :: '-' :: ds, rest)
      | rest => (readDigits rest).map fun (ds, rest) => (c :: ds, rest)
    else some ([], c :: cs)

/-- The token of a number without its sign. -/
def readMagnitude (cs : List Char) : Option (List Char × List Char) := do
  let (whole, cs) ← readWhole cs
  let (fraction, cs) ← readFraction cs
  let (exponent, cs) ← readExponent cs
  some (whole ++ fraction ++ exponent, cs)

/-- The token of a number. -/
def readToken : List Char → Option (List Char × List Char)
  | '-' :: cs => (readMagnitude cs).map fun (t, rest) => ('-' :: t, rest)
  | cs => readMagnitude cs

namespace Dialect

/-- The characters up to the closing quote. -/
def readChars (d : Dialect) : Nat → List Char → Option (List Char × List Char)
  | 0, _ => none
  | fuel + 1, cs =>
    if cs.head? = some d.style.quote then some ([], cs.drop 1)
    else do
      let (c, rest) ← d.readChar cs
      let (text, rest) ← d.readChars fuel rest
      some (c :: text, rest)

def readText (d : Dialect) (cs : List Char) : Option (String × List Char) :=
  if cs.head? = some d.style.quote then
    (d.readChars cs.length (cs.drop 1)).map fun (text, rest) => (String.ofList text, rest)
  else none

/-- Items with commas between them up to `close`, at least one. -/
def readSequence {α : Type} (item : List Char → Option (α × List Char)) (close : Char) :
    Nat → List Char → Option (List α × List Char)
  | 0, _ => none
  | fuel + 1, cs => do
    let (x, rest) ← item cs
    match skip rest with
    | [] => none
    | c :: rest =>
      if c = close then some ([x], rest)
      else if c = ',' then do
        let (xs, rest) ← readSequence item close fuel rest
        some (x :: xs, rest)
      else none

/-- Items with commas between them up to `close`, or none. -/
def readItems {α : Type} (item : List Char → Option (α × List Char)) (close : Char) (cs : List Char) :
    Option (List α × List Char) :=
  let cs := skip cs
  if cs.head? = some close then some ([], cs.drop 1)
  else readSequence item close (cs.length + 1) cs

/-- A key, a colon and a value. -/
def readMember {α : Type} (d : Dialect) (value : List Char → Option (α × List Char)) (cs : List Char) :
    Option ((String × α) × List Char) := do
  let (key, rest) ← d.readText (skip cs)
  match skip rest with
  | ':' :: rest => (value rest).map fun (t, rest) => ((key, t), rest)
  | _ => none

/-- A document without brackets: a word, a text or a number. -/
def readScalar (d : Dialect) (cs : List Char) : Option (Tree String × List Char) :=
  readWord d.style.null .null cs
    <|> readWord d.style.yes (.bool true) cs
    <|> readWord d.style.no (.bool false) cs
    <|> (d.readText cs).map (fun (s, rest) => (.str s, rest))
    <|> (readToken cs).map (fun (t, rest) => (.num (String.ofList t), rest))

/-- A document with at most `depth` brackets open at once. -/
def readValue (d : Dialect) : Nat → List Char → Option (Tree String × List Char)
  | 0, cs => d.readScalar (skip cs)
  | depth + 1, cs =>
    match skip cs with
    | '[' :: rest =>
      (readItems (d.readValue depth) ']' rest).map fun (items, rest) => (.arr items, rest)
    | '{' :: rest =>
      (readItems (d.readMember (d.readValue depth)) '}' rest).map fun (members, rest) => (.obj members, rest)
    | cs => d.readScalar cs

/-- The document that a text is. -/
def readTree (d : Dialect) (depth : Nat) (cs : List Char) : Option (Tree String) :=
  match d.readValue depth cs with
  | some (t, rest) => if skip rest = [] then some t else none
  | none => none

end Dialect

mutual

/-- The document with the values of its numbers, and its objects in order. -/
def settle : Tree String → Option Json
  | .null => some .null
  | .bool b => some (.bool b)
  | .num token => (Number.ofToken token.toList).map .num
  | .str s => some (.str s)
  | .arr items => (settleItems items).map .arr
  | .obj members => (settleMembers members).map fun ms => .obj (Dict.ofList ms)

def settleItems : List (Tree String) → Option (List Json)
  | [] => some []
  | t :: ts => do
    let x ← settle t
    let xs ← settleItems ts
    some (x :: xs)

def settleMembers : List (String × Tree String) → Option (List (String × Json))
  | [] => some []
  | (k, t) :: ms => do
    let x ← settle t
    let xs ← settleMembers ms
    some ((k, x) :: xs)

end

/-- The value of a hexadecimal digit. -/
def hexValue (c : Char) : Option Nat :=
  if '0' ≤ c ∧ c ≤ '9' then some (c.toNat - '0'.toNat)
  else if 'a' ≤ c ∧ c ≤ 'f' then some (c.toNat - 'a'.toNat + 10)
  else if 'A' ≤ c ∧ c ≤ 'F' then some (c.toNat - 'A'.toNat + 10)
  else none

/-- Four hexadecimal digits. -/
def readUnit : List Char → Option (Nat × List Char)
  | a :: b :: c :: d :: rest => do
    let a ← hexValue a
    let b ← hexValue b
    let c ← hexValue c
    let d ← hexValue d
    some (((a * 16 + b) * 16 + c) * 16 + d, rest)
  | _ => none

/-- A character written as one unit of 16 bits, or as a pair of them above
U+FFFF; half a pair is refused. -/
def readUnits (cs : List Char) : Option (Char × List Char) := do
  let (high, rest) ← readUnit cs
  if 0xd800 ≤ high ∧ high < 0xdc00 then
    match rest with
    | '\\' :: 'u' :: rest =>
      let (low, rest) ← readUnit rest
      if 0xdc00 ≤ low ∧ low < 0xe000 then
        some (Char.ofNat (0x10000 + (high - 0xd800) * 0x400 + (low - 0xdc00)), rest)
      else none
    | _ => none
  else if 0xdc00 ≤ high ∧ high < 0xe000 then none
  else some (Char.ofNat high, rest)

/-- A character between double quotes. -/
def readCompactChar : List Char → Option (Char × List Char)
  | [] => none
  | '\\' :: [] => none
  | '\\' :: c :: cs =>
    match c with
    | '"' => some ('"', cs)
    | '\\' => some ('\\', cs)
    | '/' => some ('/', cs)
    | 'b' => some ('\x08', cs)
    | 'f' => some ('\x0c', cs)
    | 'n' => some ('\n', cs)
    | 'r' => some ('\r', cs)
    | 't' => some ('\t', cs)
    | 'u' => readUnits cs
    | _ => none
  | c :: cs => if c.toNat < 0x20 then none else some (c, cs)

/-- The notation of JSON. -/
def standard : Dialect := { style := compact, readChar := readCompactChar }

/-- How many brackets may be open at once in a document. -/
def depthLimit : Nat := 127

def read (s : String) : Option Json := (standard.readTree depthLimit s.toList).bind settle

end Json

end FlowScript
