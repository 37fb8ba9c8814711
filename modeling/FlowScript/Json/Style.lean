/-
Writing documents. A `Style` holds what differs between the notations that
share one grammar: the words for null and the booleans, the separators, the
quote and how a character is written between quotes.
-/
import FlowScript.Json.Number

namespace FlowScript

namespace Json

/-- A notation for documents. -/
structure Style where
  null : List Char
  yes : List Char
  no : List Char
  /-- What is written between items and between members. -/
  comma : List Char
  /-- What is written between a key and its value. -/
  colon : List Char
  quote : Char
  escape : Char → List Char

namespace Style

variable {ν : Type}

def quoted (style : Style) (s : String) : List Char :=
  style.quote :: (s.toList.flatMap style.escape ++ [style.quote])

mutual

/-- A document in a style, its numbers written by `number`. -/
def write (style : Style) (number : ν → List Char) : Tree ν → List Char
  | .null => style.null
  | .bool b => if b then style.yes else style.no
  | .num n => number n
  | .str s => style.quoted s
  | .arr items => '[' :: (style.writeItems number items ++ [']'])
  | .obj members => '{' :: (style.writeMembers number members ++ ['}'])

/-- Items with commas between them. -/
def writeItems (style : Style) (number : ν → List Char) : List (Tree ν) → List Char
  | [] => []
  | [t] => style.write number t
  | t :: ts => style.write number t ++ (style.comma ++ style.writeItems number ts)

/-- Members with commas between them. -/
def writeMembers (style : Style) (number : ν → List Char) : List (String × Tree ν) → List Char
  | [] => []
  | [(k, t)] => style.quoted k ++ (style.colon ++ style.write number t)
  | (k, t) :: ms =>
    style.quoted k ++ (style.colon ++ (style.write number t ++ (style.comma ++ style.writeMembers number ms)))

end

end Style

/-- One hexadecimal digit, small. -/
def hexDigit (n : Nat) : Char := Nat.digitChar n

/-- A number below 256 with two hexadecimal digits. -/
def hexByte (n : Nat) : List Char := [hexDigit (n / 16), hexDigit (n % 16)]

/-- A character between double quotes: the quote, the backslash and control
characters below the space are escaped. -/
def escapeChar (c : Char) : List Char :=
  if c = '"' then "\\\"".toList
  else if c = '\\' then "\\\\".toList
  else if c = '\n' then "\\n".toList
  else if c = '\r' then "\\r".toList
  else if c = '\t' then "\\t".toList
  else if c = '\x08' then "\\b".toList
  else if c = '\x0c' then "\\f".toList
  else if c.toNat < 0x20 then "\\u00".toList ++ hexByte c.toNat
  else [c]

/-- The compact notation of JSON. -/
def compact : Style :=
  { null := "null".toList, yes := "true".toList, no := "false".toList, comma := [','], colon := [':'],
    quote := '"', escape := escapeChar }

def text (t : Json) : String := String.ofList (compact.write Number.token t)

end Json

end FlowScript
