/-
Signals to devices: the level of a digital output, set for a duration.
-/
import FlowScript.Component.Kind

namespace FlowScript

namespace Component

/-- The highest pin of the output header. -/
def highestPin : Nat := 27

/-- The level that a word names. -/
def levelOfWord? (word : String) : Option Bool :=
  if word ∈ ["high", "on", "true", "1"] then some true
  else if word ∈ ["low", "off", "false", "0"] then some false
  else none

/-- A level: a truth value, zero or one, or a word; high if nothing is said. -/
def level : Option Json → Except PropertyFault Bool
  | none => .ok true
  | some (.bool b) => .ok b
  | some (.num n) =>
    match n.toNat? with
    | some 0 => .ok false
    | some 1 => .ok true
    | _ => .error ⟨"state", .badLevelNumber⟩
  | some (.str s) => (levelOfWord? (Text.keyword s)).elim (.error ⟨"state", .badLevelWord s⟩) .ok
  | some t => .error ⟨"state", .notLevel t.kind⟩

def pinNumber (p : Properties) : Except PropertyFault Nat := do
  let pin ← p.requiredNat "pin"
  if highestPin < pin then .error ⟨"pin", .above highestPin⟩ else pure pin

/-- The pin, its level, and how long until it is set back; zero leaves it. -/
def gpioValues : Filling := fun node p target => do
  let pin ← pinNumber p
  let state ← level (p.get? "state")
  let duration ← p.nonNegativeOr "duration" .zero
  pure ((baseContext target node).insertAll
    [("pin", toString pin),
      ("state", target.boolLiteral state),
      ("duration", target.numberLiteral duration)])

def gpioKind : Kind := .filling "gpio" (fun label => [label]) gpioValues

end Component

end FlowScript
