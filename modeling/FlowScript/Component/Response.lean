/-
What a participant answers: key presses. The keys that count are given as a
list of names, or as one text with commas or blanks between them.
-/
import FlowScript.Component.Kind

namespace FlowScript

namespace Component

/-- What follows the identifier in the name of the pressed keys. -/
def keysSuffix : String := "_keys"

/-- Whether a character separates names of keys. -/
def separatesKeys (c : Char) : Bool := c == ',' || Text.isBlank c

/-- Whether a character is a quote around the name of a key. -/
def isKeyQuote (c : Char) : Bool := c == '\'' || c == '"'

/-- The names of keys in a text: its pieces without quotes, as far as they are not empty. -/
def keysOfText (s : String) : List String :=
  (((s.toList.splitOnP separatesKeys).map (Text.strip isKeyQuote)).filter (!·.isEmpty)).map String.ofList

/-- The name of a key as an item of a list: a text that is not blank, trimmed. -/
def keyOfItem : Json → Except PropertyFault String
  | .str s => if Text.isBlankText s then .error ⟨"allowed_keys", .badKey .text⟩ else .ok (Text.trim s)
  | t => .error ⟨"allowed_keys", .badKey t.kind⟩

/-- The keys that count; the space bar if nothing is said. -/
def allowedKeys : Option Json → Except PropertyFault (List String)
  | none => .ok ["space"]
  | some (.str s) => .ok (keysOfText s)
  | some (.arr items) => items.mapM keyOfItem
  | some t => .error ⟨"allowed_keys", .notKeys t.kind⟩

/-- The keys that count as an expression; an empty list lets any key count. -/
def keysLiteral (target : Target) (keys : List String) : String :=
  if keys.isEmpty then target.noneLiteral else target.literal (.arr (keys.map .str))

/-- No end of waiting as an expression. -/
def foreverLiteral : Target → String
  | .desktop => "float('inf')"
  | .browser => "Infinity"

/-- How long to wait as an expression; zero has no end. -/
def waitLiteral (target : Target) (duration : Binary64) : String :=
  if duration.isPositive then target.numberLiteral duration else foreverLiteral target

/-- The keys that count, how long to wait, and the answer that is correct. -/
def keyboardValues : Filling := fun node p target => do
  let keys ← allowedKeys (p.get? "allowed_keys")
  let duration ← p.nonNegativeOr "duration" .zero
  let storeCorrect ← p.boolOr "store_correct" false
  let correctAnswer ← p.textOr "correct_answer" ""
  pure ((baseContext target node).insertAll
    [("allowed_keys", keysLiteral target keys),
      ("duration", target.numberLiteral duration),
      ("max_wait", waitLiteral target duration),
      ("store_correct", target.boolLiteral storeCorrect),
      ("correct_answer", target.textLiteral correctAnswer)])

/-- Key presses. They bind the keyboard and the keys that were pressed. -/
def keyboardKind : Kind :=
  .filling "keyboard" (fun label => [label, label ++ keysSuffix]) keyboardValues

end Component

end FlowScript
