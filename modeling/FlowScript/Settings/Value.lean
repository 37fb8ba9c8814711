/-
Values of settings before they are understood. Sources of settings differ in
what they can say of a number, so a number keeps how it was given; tables
are laid over one another key by key. A table of a file may be a wrapper,
which stands for the value that it holds.
-/
import FlowScript.Decimal.Binary64
import FlowScript.Dict
import FlowScript.Json.Basic

namespace FlowScript

namespace Settings

/-- A value of a source of settings. -/
inductive Value where
  | empty
  | flag (value : Bool)
  /-- A number without a sign. -/
  | natural (value : Nat)
  /-- A number of a type with signs. -/
  | integer (value : Int)
  | real (value : Binary64)
  | text (value : String)
  | list (items : List Value)
  | table (entries : List (String × Value))
deriving Repr

namespace Value

mutual

/-- A value in place of another: tables are laid over tables, and everything
else replaces what was there. -/
def overlay (base : Value) : Value → Value
  | .table entries =>
    match base with
    | .table below => .table (overlayEntries below entries)
    | _ => .table entries
  | value => value

/-- The entries of a table laid over another, one after the other. -/
def overlayEntries (below : Dict Value) : List (String × Value) → Dict Value
  | [] => below
  | (key, value) :: rest =>
    let merged := match Dict.get? below key with
      | some base => overlay base value
      | none => value
    overlayEntries (Dict.insert below key merged) rest

end

/-! ## Wrappers -/

/-- The key of what a wrapper holds. -/
def wrappedKey : String := "___figment_value_value"

/-- The key of the mark that says which source a wrapped value is from. Sources
are given their marks, and no file can name one. -/
def sourceKey : String := "___figment_value_id"

mutual

/-- A value of a file without its wrappers: each is replaced by what it holds,
and whatever else it has is left out. There is no value if one names its source. -/
def plain? : Value → Option Value
  | .list items => (plainItems? items).map .list
  | .table entries => do
    let entries ← plainEntries? entries
    if Dict.contains entries sourceKey then none
    else some ((Dict.get? entries wrappedKey).getD (.table entries))
  | value => some value

def plainItems? : List Value → Option (List Value)
  | [] => some []
  | value :: rest => do return (← plain? value) :: (← plainItems? rest)

/-- The entries of a table with each value plain. -/
def plainEntries? : List (String × Value) → Option (Dict Value)
  | [] => some []
  | (key, value) :: rest => do return (key, ← plain? value) :: (← plainEntries? rest)

end

/-- A whole file as a source of settings. The table that is the file is no
wrapper, whatever its keys are. -/
def ofFile? : Value → Option Value
  | .table entries => (plainEntries? entries).map .table
  | _ => none

mutual

/-- A document as a source of settings. -/
def ofJson : Json → Value
  | .null => .empty
  | .bool b => .flag b
  | .num (.int n) => if 0 ≤ n then .natural n.toNat else .integer n
  | .num (.real x) => .real x
  | .str s => .text s
  | .arr items => .list (ofItems items)
  | .obj members => .table (ofMembers members)

def ofItems : List Json → List Value
  | [] => []
  | t :: ts => ofJson t :: ofItems ts

def ofMembers : List (String × Json) → List (String × Value)
  | [] => []
  | (key, t) :: rest => (key, ofJson t) :: ofMembers rest

end

end Value

end Settings

end FlowScript
