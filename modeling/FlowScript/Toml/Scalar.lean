/-
The simple values of TOML: texts, numbers, truth values, dates and times, and
the keys of tables. Every reader takes what stands at the front and gives
what is left, or fails.
-/
import FlowScript.Decimal.Reading
import FlowScript.Json.Reader
import FlowScript.Settings.Value

namespace FlowScript

namespace Toml

open Settings (Value)

/-- The blanks within a line. -/
def isBlank (c : Char) : Bool := c = ' ' ∨ c = '\t'

def skipBlanks (cs : List Char) : List Char := cs.dropWhile isBlank

/-- An end of line at the front. -/
def readNewline : List Char → Option (List Char)
  | '\n' :: cs => some cs
  | '\r' :: '\n' :: cs => some cs
  | _ => none

/-- Whether a character may stand in a comment, or in a text without escapes. -/
def isPlain (c : Char) : Bool := c = '\t' ∨ (0x20 ≤ c.toNat ∧ c.toNat ≠ 0x7f)

/-- What is left after a comment, if there is one. -/
def skipComment : List Char → List Char
  | '#' :: cs => cs.dropWhile isPlain
  | cs => cs

/-! ## Texts -/

/-- A character given by hexadecimal digits; half a surrogate pair is none. -/
def charOfHex (ds : List Char) : Option Char :=
  let n? := ds.foldl (fun n? d => n?.bind fun n => (Json.hexValue d).map fun v => n * 16 + v) (some 0)
  n?.bind fun n => if n < 0xd800 ∨ (0xdfff < n ∧ n < 0x110000) then some (Char.ofNat n) else none

/-- The character of an escape after its backslash. -/
def readEscape : List Char → Option (Char × List Char)
  | [] => none
  | c :: cs =>
    match c with
    | 'b' => some ('\x08', cs)
    | 't' => some ('\t', cs)
    | 'n' => some ('\n', cs)
    | 'f' => some ('\x0c', cs)
    | 'r' => some ('\r', cs)
    | '"' => some ('"', cs)
    | '\\' => some ('\\', cs)
    | 'u' => if cs.length < 4 then none else (charOfHex (cs.take 4)).map fun c => (c, cs.drop 4)
    | 'U' => if cs.length < 8 then none else (charOfHex (cs.take 8)).map fun c => (c, cs.drop 8)
    | _ => none

/-- A text on one line up to its closing quote; escapes count between double quotes. -/
def readLine (quote : Char) : Nat → List Char → Option (List Char × List Char)
  | 0, _ => none
  | _ + 1, [] => none
  | fuel + 1, c :: cs =>
    if c = quote then some ([], cs)
    else if c = '\\' ∧ quote = '"' then do
      let (x, rest) ← readEscape cs
      let (text, rest) ← readLine quote fuel rest
      some (x :: text, rest)
    else if isPlain c then (readLine quote fuel cs).map fun (text, rest) => (c :: text, rest)
    else none

/-- What is left after blanks and ends of lines. -/
def skipLines : Nat → List Char → List Char
  | 0, cs => cs
  | fuel + 1, cs =>
    match readNewline (skipBlanks cs) with
    | some rest => skipLines fuel rest
    | none => skipBlanks cs

/-- A text of several lines up to three closing quotes; up to two quotes may
stand right before them. A backslash at the end of a line joins it with what
follows the blanks. -/
def readBlock (quote : Char) : Nat → List Char → Option (List Char × List Char)
  | 0, _ => none
  | _ + 1, [] => none
  | fuel + 1, c :: cs =>
    if c = quote then
      let run := (c :: cs).takeWhile (· == quote)
      let rest := (c :: cs).dropWhile (· == quote)
      if run.length < 3 then
        (readBlock quote fuel rest).map fun (text, rest) => (run ++ text, rest)
      else if run.length ≤ 5 then some (run.drop 3, rest)
      else none
    else if c = '\\' ∧ quote = '"' then
      match readNewline (skipBlanks cs) with
      | some rest => readBlock quote fuel (skipLines rest.length rest)
      | none => do
        let (x, rest) ← readEscape cs
        let (text, rest) ← readBlock quote fuel rest
        some (x :: text, rest)
    else
      match readNewline (c :: cs) with
      | some rest => (readBlock quote fuel rest).map fun (text, rest) => ('\n' :: text, rest)
      | none =>
        if isPlain c then (readBlock quote fuel cs).map fun (text, rest) => (c :: text, rest) else none

/-- A text after its opening quote. -/
def readQuoted (quote : Char) (cs : List Char) : Option (List Char × List Char) :=
  match cs with
  | a :: b :: rest =>
    if a = quote ∧ b = quote then
      let rest := (readNewline rest).getD rest
      readBlock quote (rest.length + 1) rest
    else readLine quote (cs.length + 1) cs
  | _ => readLine quote (cs.length + 1) cs

/-! ## Keys -/

/-- Whether a character may stand in a key without quotes. -/
def isBare (c : Char) : Bool := c.isAlphanum || c == '_' || c == '-'

def readKey : List Char → Option (String × List Char)
  | '"' :: cs => (readLine '"' (cs.length + 1) cs).map fun (k, rest) => (String.ofList k, rest)
  | '\'' :: cs => (readLine '\'' (cs.length + 1) cs).map fun (k, rest) => (String.ofList k, rest)
  | cs =>
    match cs.takeWhile isBare with
    | [] => none
    | k => some (String.ofList k, cs.dropWhile isBare)

/-- Keys with points between them, at least one and at most as many as told. -/
def readPath : Nat → List Char → Option (List String × List Char)
  | 0, _ => none
  | fuel + 1, cs => do
    let (key, rest) ← readKey (skipBlanks cs)
    match skipBlanks rest with
    | '.' :: rest => (readPath fuel rest).map fun (keys, rest) => (key :: keys, rest)
    | rest => some ([key], rest)

/-! ## Numbers -/

/-- Digits of a class with single underscores between them. -/
def readDigits (isDigit : Char → Bool) (cs : List Char) : Option (List Char) :=
  let groups := cs.splitOn '_'
  if groups.all fun g => !g.isEmpty && g.all isDigit then some groups.flatten else none

/-- The number that digits of a base write. -/
def ofBase (base : Nat) (ds : List Char) : Nat :=
  ds.foldl (fun n d => n * base + (Json.hexValue d).getD 0) 0

/-- Where integers of 64 bits end. -/
def integerBound : Int := 0x8000000000000000

/-- An integer that fits 64 bits. -/
def fitting (n : Int) : Option Value :=
  if -integerBound ≤ n ∧ n < integerBound then some (.integer n) else none

/-- An integer after a mark for its base. -/
def readBased (base : Nat) (isDigit : Char → Bool) (cs : List Char) : Option Value :=
  (readDigits isDigit cs).bind fun ds => fitting (ofBase base ds)

/-- A decimal integer without its sign; it has no needless zero in front. -/
def readDecimal (cs : List Char) : Option (List Char) :=
  (readDigits Char.isDigit cs).filter fun ds => ds.head? != some '0' || ds.length == 1

/-- The exponent of a number with its letter, or nothing, as text to be read on. -/
def readTail (cs : List Char) : Option (List Char) :=
  match cs with
  | [] => some []
  | _ :: cs =>
    let (sign, ds) := match cs with
      | '-' :: ds => (['-'], ds)
      | '+' :: ds => ([], ds)
      | ds => ([], ds)
    (readDigits Char.isDigit ds).map fun ds => 'e' :: sign ++ ds

/-- A floating-point number without its sign, as text to be read on. -/
def readRealText (cs : List Char) : Option (List Char) :=
  let isExponent := fun c => c == 'e' || c == 'E'
  let mantissa := cs.takeWhile fun c => !isExponent c
  let tail := cs.dropWhile fun c => !isExponent c
  match mantissa.splitOn '.' with
  | [whole] => do
    let whole ← readDecimal whole
    let tail ← readTail tail
    if tail.isEmpty then none else some (whole ++ tail)
  | [whole, fraction] => do
    let whole ← readDecimal whole
    let fraction ← readDigits Char.isDigit fraction
    let tail ← readTail tail
    some (whole ++ '.' :: fraction ++ tail)
  | _ => none

/-- A number. One too large is refused, and one too far below zero is infinite. -/
def readNumber (token : List Char) : Option Value :=
  match token with
  | '0' :: 'x' :: ds => readBased 16 (fun c => (Json.hexValue c).isSome) ds
  | '0' :: 'o' :: ds => readBased 8 (fun c => '0' ≤ c && c ≤ '7') ds
  | '0' :: 'b' :: ds => readBased 2 (fun c => c == '0' || c == '1') ds
  | token =>
    let (negative, body) := Decimal.takeSign token
    if body = "inf".toList then some (.real (.infinite negative))
    else if body = "nan".toList then some (.real .nan)
    else
      match readDecimal body with
      | some ds => fitting (if negative then -(Decimal.ofDigits ds : Int) else Decimal.ofDigits ds)
      | none => do
        let text ← readRealText body
        let x ← Decimal.readUnsigned negative text
        if x = .infinite false then none else some (.real x)

/-! ## Dates and times -/

/-- A number of exactly as many digits as `width`, within limits. -/
def inRange (width low high : Nat) (cs : List Char) : Bool :=
  cs.length == width && cs.all Char.isDigit && low ≤ Decimal.ofDigits cs && Decimal.ofDigits cs ≤ high

def monthDays (year month : Nat) : Nat :=
  if month = 2 then if (year % 4 = 0 ∧ year % 100 ≠ 0) ∨ year % 400 = 0 then 29 else 28
  else if month ∈ [4, 6, 9, 11] then 30
  else 31

/-- Whether a text is a date: year, month and day. -/
def isDate (cs : List Char) : Bool :=
  match cs.splitOn '-' with
  | [y, m, d] =>
    inRange 4 0 9999 y && inRange 2 1 12 m &&
      inRange 2 1 (monthDays (Decimal.ofDigits y) (Decimal.ofDigits m)) d
  | _ => false

/-- Whether a text is a time of day: hours, minutes and seconds with a fraction. -/
def isTime (cs : List Char) : Bool :=
  match cs.splitOn ':' with
  | [h, m, s] =>
    inRange 2 0 23 h && inRange 2 0 59 m &&
      match s.splitOn '.' with
      | [s] => inRange 2 0 60 s
      | [s, fraction] => inRange 2 0 60 s && !fraction.isEmpty && fraction.all Char.isDigit
      | _ => false
  | _ => false

/-- Whether a text is a distance from universal time. -/
def isOffset (cs : List Char) : Bool :=
  match cs.splitOn ':' with
  | [h, m] => inRange 2 0 23 h && inRange 2 0 59 m
  | _ => false

/-- Whether a text is a time of day that may say how far from universal time it is. -/
def isZonedTime (cs : List Char) : Bool :=
  let isMark := fun c => c == 'Z' || c == 'z' || c == '+' || c == '-'
  let time := cs.takeWhile fun c => !isMark c
  isTime time &&
    match cs.dropWhile fun c => !isMark c with
    | [] => true
    | c :: rest => if c == 'Z' || c == 'z' then rest.isEmpty else isOffset rest

/-- Whether a text is a date, a time of day or both. -/
def isMoment (cs : List Char) : Bool :=
  isDate cs || isTime cs ||
    (isDate (cs.take 10) &&
      match cs.drop 10 with
      | c :: rest => (c == 'T' || c == 't' || c == ' ') && isZonedTime rest
      | [] => false)

/-- The key under which a date or time stands in place of a table. -/
def momentKey : String := "$moment"

/-- Whether a character may stand in a number, a date or a word. -/
def isTokenChar (c : Char) : Bool := c.isAlphanum || c ∈ ['+', '-', '_', '.', ':']

/-- A token: a run of its characters, and after a date a blank and a time. -/
def readToken (cs : List Char) : List Char × List Char :=
  let token := cs.takeWhile isTokenChar
  let rest := cs.dropWhile isTokenChar
  match rest with
  | ' ' :: d :: more =>
    if isDate token && d.isDigit then
      (token ++ ' ' :: (d :: more).takeWhile isTokenChar, (d :: more).dropWhile isTokenChar)
    else (token, rest)
  | _ => (token, rest)

def ofToken (token : List Char) : Option Value :=
  if token = "true".toList then some (.flag true)
  else if token = "false".toList then some (.flag false)
  else if isMoment token then some (.table [(momentKey, .text (String.ofList token))])
  else readNumber token

end Toml

end FlowScript
