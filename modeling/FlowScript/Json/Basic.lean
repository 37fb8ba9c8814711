/-
Structured documents: null, booleans, numbers, texts, lists and objects. A
`Tree` leaves open what a number is, so that one type serves both for a
document as it is written, with numbers as their tokens, and for a document
as it is meant. A `Json` is the second: its numbers are integers or
floating-point numbers, and its objects are tables. Those of a document that is
read are sorted (`settled_of_read`).
-/
import FlowScript.Decimal.Binary64
import FlowScript.Dict

namespace FlowScript

namespace Json

/-- A document whose numbers are of type `ν`. -/
inductive Tree (ν : Type) where
  | null
  | bool (value : Bool)
  | num (value : ν)
  | str (value : String)
  | arr (items : List (Tree ν))
  | obj (members : List (String × Tree ν))
deriving Repr, BEq, Inhabited

/-- A number: an integer of at most 64 bits, or a floating-point number. -/
inductive Number where
  | int (value : Int)
  | real (value : Binary64)
deriving DecidableEq, Repr

inductive Kind where
  | null
  | boolean
  | number
  | text
  | list
  | object
deriving DecidableEq, Repr

/-- The kind with its article, as messages name it. -/
def Kind.described : Kind → String
  | .null => "null"
  | .boolean => "a boolean"
  | .number => "a number"
  | .text => "a string"
  | .list => "an array"
  | .object => "an object"

namespace Number

/-- The number as a natural number below 2^64, if it is written as one. -/
def toNat? : Number → Option Nat
  | .int n => if 0 ≤ n then some n.toNat else none
  | .real _ => none

/-- The number as a floating-point number. -/
def toReal : Number → Binary64
  | .int n => Binary64.ofInt n
  | .real x => x

end Number

namespace Tree

variable {ν : Type}

def kind : Tree ν → Kind
  | .null => .null
  | .bool _ => .boolean
  | .num _ => .number
  | .str _ => .text
  | .arr _ => .list
  | .obj _ => .object

def isNull : Tree ν → Bool
  | .null => true
  | _ => false

def text? : Tree ν → Option String
  | .str s => some s
  | _ => none

def items? : Tree ν → Option (List (Tree ν))
  | .arr items => some items
  | _ => none

def members? : Tree ν → Option (Dict (Tree ν))
  | .obj members => some members
  | _ => none

/-- The value of a member of an object. -/
def member? (t : Tree ν) (key : String) : Option (Tree ν) :=
  t.members?.bind fun members => Dict.get? members key

theorem text?_eq_some_iff {t : Tree ν} {s : String} : t.text? = some s ↔ t = .str s := by
  cases t <;> simp [text?]

theorem items?_eq_some_iff {t : Tree ν} {items : List (Tree ν)} :
    t.items? = some items ↔ t = .arr items := by
  cases t <;> simp [items?]

end Tree

end Json

/-- A document with its numbers read and its objects as tables. -/
abbrev Json := Json.Tree Json.Number

end FlowScript
