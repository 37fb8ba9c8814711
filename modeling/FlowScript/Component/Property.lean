/-
Reading the properties of a node. A property is looked for in the node's
entry of the property table and then in its own data, and null counts as
absent in both. Each reader says what it accepts; a property that is not
accepted fails with the reason.
-/
import FlowScript.Json.Style
import FlowScript.Text.Blank

namespace FlowScript

namespace Component

inductive Reason where
  | absent
  | blank
  | notText (found : Json.Kind)
  | notNumber (found : Json.Kind)
  | notFinite
  | negative
  | notPositive
  | notBoolean (found : Json.Kind)
  | notBooleanWord (word : String)
  | notInteger (found : Json.Kind)
  | notNatural
  | notPair (found : Json.Kind)
  | pairNotPositive
  | notKeys (found : Json.Kind)
  | badKey (found : Json.Kind)
  | above (limit : Nat)
  | notLevel (found : Json.Kind)
  | badLevelNumber
  | badLevelWord (word : String)
  /-- A reason that a kind of component has of its own, as it words it. -/
  | other (text : String)
deriving DecidableEq, Repr

def Reason.message : Reason → String
  | .absent => "is required"
  | .blank => "must be non-empty"
  | .notText found => "expected a string, got " ++ found.described
  | .notNumber found => "expected a number, got " ++ found.described
  | .notFinite => "must be a finite number"
  | .negative => "must be >= 0"
  | .notPositive => "must be > 0"
  | .notBoolean found => "expected a boolean, got " ++ found.described
  | .notBooleanWord word => "expected a boolean, got \"" ++ word ++ "\""
  | .notInteger found => "expected an integer, got " ++ found.described
  | .notNatural => "must be a non-negative integer"
  | .notPair found => "expected a [width, height] pair, got " ++ found.described
  | .pairNotPositive => "must be two positive numbers"
  | .notKeys found => "expected a string or an array, got " ++ found.described
  | .badKey found => "entries must be non-empty strings, got " ++ found.described
  | .above limit => "must be <= " ++ toString limit
  | .notLevel found => "expected a level, got " ++ found.described
  | .badLevelNumber => "numeric level must be 0 or 1"
  | .badLevelWord word => "unknown level \"" ++ word ++ "\""
  | .other text => text

/-- A property that is not accepted, and why. -/
structure PropertyFault where
  key : String
  reason : Reason
deriving DecidableEq, Repr

def PropertyFault.message (e : PropertyFault) : String :=
  "property '" ++ e.key ++ "': " ++ e.reason.message

/-- The properties of a node: its entry of the table, and its own data. -/
structure Properties where
  entry : Dict Json
  data : Dict Json

namespace Properties

/-- A value that is there and not null. -/
def present? (d : Dict Json) (key : String) : Option Json := (d.get? key).filter fun t => !t.isNull

/-- The value of a property: of the entry, else of the data. -/
def get? (p : Properties) (key : String) : Option Json :=
  (present? p.entry key).or (present? p.data key)

/-- A text or the text of a number. -/
def textOr (p : Properties) (key default : String) : Except PropertyFault String :=
  match p.get? key with
  | none => .ok default
  | some (.str s) => .ok s
  | some (.num n) => .ok (String.ofList n.token)
  | some t => .error ⟨key, .notText t.kind⟩

/-- A text that is not blank and must be there. -/
def requiredText (p : Properties) (key : String) : Except PropertyFault String :=
  match p.get? key with
  | none => .error ⟨key, .absent⟩
  | some (.str s) => if Text.isBlankText s then .error ⟨key, .blank⟩ else .ok s
  | some t => .error ⟨key, .notText t.kind⟩

/-- A number if it is finite. -/
def finite (key : String) (x? : Option Binary64) : Except PropertyFault Binary64 :=
  match x? with
  | some x => if x.isFinite then .ok x else .error ⟨key, .notFinite⟩
  | none => .error ⟨key, .notFinite⟩

/-- A finite number or a text that is one; a blank text counts as absent. -/
def numberOr (p : Properties) (key : String) (default : Binary64) : Except PropertyFault Binary64 :=
  match p.get? key with
  | none => .ok default
  | some (.num n) => finite key (some n.toReal)
  | some (.str s) =>
    if Text.isBlankText s then .ok default else finite key (Decimal.readReal (Text.trim s).toList)
  | some t => .error ⟨key, .notNumber t.kind⟩

/-- A finite number that is not below zero. -/
def nonNegativeOr (p : Properties) (key : String) (default : Binary64) : Except PropertyFault Binary64 :=
  match p.numberOr key default with
  | .ok x => if x.isNegative then .error ⟨key, .negative⟩ else .ok x
  | .error e => .error e

/-- A truth value or a text that names one. -/
def boolOr (p : Properties) (key : String) (default : Bool) : Except PropertyFault Bool :=
  match p.get? key with
  | none => .ok default
  | some (.bool b) => .ok b
  | some (.str s) =>
    let word := Text.keyword s
    if word = "true" then .ok true
    else if word = "false" then .ok false
    else .error ⟨key, .notBooleanWord s⟩
  | some t => .error ⟨key, .notBoolean t.kind⟩

/-- A natural number of 64 bits or a text that is one, which must be there. -/
def requiredNat (p : Properties) (key : String) : Except PropertyFault Nat :=
  match p.get? key with
  | none => .error ⟨key, .absent⟩
  | some (.num n) => n.toNat?.elim (.error ⟨key, .notNatural⟩) .ok
  | some (.str s) =>
    (Decimal.readNatural Json.Number.wordBound (Text.trim s).toList).elim (.error ⟨key, .notNatural⟩) .ok
  | some t => .error ⟨key, .notInteger t.kind⟩

end Properties

end Component

end FlowScript
