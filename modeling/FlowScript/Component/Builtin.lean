/-
The kinds of components that come with the library.
-/
import FlowScript.Component.Response
import FlowScript.Component.Stimulus
import FlowScript.Component.Trigger

namespace FlowScript

namespace Component

/-- Texts, images, key presses and digital outputs. -/
def builtin : Palette := .ofList [textKind, imageKind, keyboardKind, gpioKind]

end Component

end FlowScript
