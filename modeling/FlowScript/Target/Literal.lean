/-
Values as source text of the target languages. Python writes words of its
own for null and the booleans, texts between single quotes and a blank after
each separator; JavaScript reads the compact notation of JSON.
-/
import FlowScript.Json.Style
import FlowScript.Target.Basic

namespace FlowScript

namespace Target

/-- A character between single quotes: quote, backslash and control
characters of ASCII are escaped. -/
def escapeSingle (c : Char) : List Char :=
  if c = '\\' then "\\\\".toList
  else if c = '\'' then "\\'".toList
  else if c = '\n' then "\\n".toList
  else if c = '\r' then "\\r".toList
  else if c = '\t' then "\\t".toList
  else if c.toNat < 0x20 ∨ c.toNat = 0x7f then "\\x".toList ++ Json.hexByte c.toNat
  else [c]

/-- How documents are written as expressions of Python. -/
def spaced : Json.Style :=
  { null := "None".toList, yes := "True".toList, no := "False".toList, comma := [',', ' '],
    colon := [':', ' '], quote := '\'', escape := escapeSingle }

/-- How documents are written as expressions of the target's language. -/
def style : Target → Json.Style
  | .desktop => spaced
  | .browser => Json.compact

/-- A document as an expression. -/
def literal (target : Target) (t : Json) : String :=
  String.ofList (target.style.write Json.Number.token t)

def textLiteral (target : Target) (s : String) : String := String.ofList (target.style.quoted s)

def boolLiteral (target : Target) (b : Bool) : String := target.literal (.bool b)

def noneLiteral : Target → String
  | .desktop => "None"
  | .browser => "undefined"

/-- Positional from 0.0001 to below 10^16, else with an exponent; a tie goes
away from zero. -/
def numberLayout : Decimal.Notation :=
  { least := -4, greatest := 15, plus := [], tie := .away, nan := "NaN".toList, infinity := "inf".toList }

/-- A number without the ending `.0`. -/
def dropPoint (cs : List Char) : List Char :=
  if ['.', '0'].isSuffixOf cs then cs.take (cs.length - 2) else cs

/-- A floating-point number as an expression; JavaScript needs no point. -/
def numberLiteral (target : Target) (x : Binary64) : String :=
  let cs := numberLayout.text x
  match target with
  | .desktop => String.ofList cs
  | .browser => String.ofList (dropPoint cs)

end Target

end FlowScript
