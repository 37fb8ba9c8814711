/-
What is shown to a participant: texts and images, each for a duration.
-/
import FlowScript.Component.Kind

namespace FlowScript

namespace Component

/-- One second, how long a stimulus is shown. -/
def showTime : Binary64 := Binary64.ofNat 1

/-- One twentieth, the height of a text. -/
def textHeight : Binary64 := Binary64.round false 1 20

def positive (key : String) (x : Binary64) : Except PropertyFault Unit :=
  if x.isPositive then .ok () else .error ⟨key, .notPositive⟩

/-- A text, where and how high it stands, and its colour. -/
def textValues : Filling := fun node p target => do
  let text ← p.textOr "text" "Hello World"
  let duration ← p.nonNegativeOr "duration" showTime
  let x ← p.numberOr "x" .zero
  let y ← p.numberOr "y" .zero
  let height ← p.numberOr "height" textHeight
  positive "height" height
  let color ← p.textOr "color" "white"
  pure ((baseContext target node).insertAll
    [("text", target.textLiteral text),
      ("duration", target.numberLiteral duration),
      ("x", target.numberLiteral x),
      ("y", target.numberLiteral y),
      ("height", target.numberLiteral height),
      ("color", target.textLiteral color)])

/-- Two positive numbers, a width and a height. -/
def sizePair : Json → Except PropertyFault (Binary64 × Binary64)
  | .arr [.num w, .num h] =>
    if w.toReal.isFinite && w.toReal.isPositive && h.toReal.isFinite && h.toReal.isPositive then
      .ok (w.toReal, h.toReal)
    else .error ⟨"size", .pairNotPositive⟩
  | .arr _ => .error ⟨"size", .pairNotPositive⟩
  | t => .error ⟨"size", .notPair t.kind⟩

/-- A size as an expression; an absent one is left to the program that runs. -/
def sizeLiteral (target : Target) : Option Json → Except PropertyFault String
  | none => .ok target.noneLiteral
  | some t => do
    let (w, h) ← sizePair t
    pure ("[" ++ target.numberLiteral w ++ ", " ++ target.numberLiteral h ++ "]")

/-- An image, where it stands and how large it is. -/
def imageValues : Filling := fun node p target => do
  let image ← p.requiredText "image"
  let duration ← p.nonNegativeOr "duration" showTime
  let x ← p.numberOr "x" .zero
  let y ← p.numberOr "y" .zero
  let size ← sizeLiteral target (p.get? "size")
  pure ((baseContext target node).insertAll
    [("image", target.textLiteral image),
      ("duration", target.numberLiteral duration),
      ("x", target.numberLiteral x),
      ("y", target.numberLiteral y),
      ("size", size)])

def textKind : Kind := .filling "text" (fun label => [label]) textValues

def imageKind : Kind := .filling "image" (fun label => [label]) imageValues

end Component

end FlowScript
