/-
Names that a node must not use for itself: the keywords of the target's
language and what the assembly template has already bound.
-/
import FlowScript.Target.Basic

namespace FlowScript

namespace Target

/-- Words that the language keeps for itself. -/
def keywords : Target → List String
  | .desktop =>
    ["False", "None", "True", "and", "as", "assert", "async", "await", "break", "class", "continue",
      "def", "del", "elif", "else", "except", "finally", "for", "from", "global", "if", "import", "in",
      "is", "lambda", "nonlocal", "not", "or", "pass", "raise", "return", "try", "while", "with",
      "yield"]
  | .browser =>
    ["await", "break", "case", "catch", "class", "const", "continue", "debugger", "default", "delete",
      "do", "else", "enum", "export", "extends", "false", "finally", "for", "function", "if",
      "implements", "import", "in", "instanceof", "interface", "let", "new", "null", "package",
      "private", "protected", "public", "return", "static", "super", "switch", "this", "throw", "true",
      "try", "typeof", "var", "void", "while", "with", "yield", "arguments", "eval", "undefined", "NaN",
      "Infinity"]

/-- Names that the program around the fragments binds. -/
def bound : Target → List String
  | .desktop =>
    ["core", "data", "gui", "logging", "visual", "keyboard", "expName", "expInfo", "dlg", "thisExp",
      "win", "defaultKeyboard", "globalClock", "DigitalOutputDevice"]
  | .browser =>
    ["core", "util", "visual", "hardware", "PsychoJS", "expName", "expInfo", "psychoJS", "globalClock",
      "sleep", "runExperiment", "win", "thisExp"]

/-- Whether a node must not use a name. -/
def isReserved (target : Target) (name : String) : Bool :=
  target.keywords.contains name || target.bound.contains name

end Target

end FlowScript
