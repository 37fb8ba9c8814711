/-
The two environments that programs are written for, and the names that go
with each: file extension, record field, comment sign, template names.
-/
import FlowScript.Text.Blank

namespace FlowScript

/-- The environment a program runs in: a Python script on the desktop, or a
JavaScript module in the browser. -/
inductive Target where
  | desktop
  | browser
deriving DecidableEq, Repr

namespace Target

/-- All targets in the order of output. -/
def all : List Target := [.desktop, .browser]

/-- The name used in settings, on the command line and in template directories. -/
def name : Target → String
  | .desktop => "desktop"
  | .browser => "browser"

def extension : Target → String
  | .desktop => "py"
  | .browser => "js"

/-- The field of a stored experiment that holds the program. -/
def codeField : Target → String
  | .desktop => "python_code"
  | .browser => "psychojs_code"

/-- What begins a comment line. -/
def commentSign : Target → String
  | .desktop => "#"
  | .browser => "//"

/-- The name of a template: its stem with the target's extension. -/
def templateName (target : Target) (stem : String) : String := stem ++ "." ++ target.extension

/-- The name of the template that holds the whole program. -/
def assemblyTemplate (target : Target) : String := target.templateName "experiment"

/-- The name of the template for nodes of one type. -/
def componentTemplate (target : Target) (type : String) : String :=
  target.templateName ("components/" ++ type)

/-- A word that names no target. -/
structure Unknown where
  /-- The word, trimmed and without capitals. -/
  word : String
deriving DecidableEq, Repr

def Unknown.message (u : Unknown) : String :=
  "unknown target '" ++ u.word ++ "' (expected desktop or browser)"

/-- The target that a word names, capitals and blanks around it aside. -/
def ofWord (s : String) : Except Unknown Target :=
  let word := Text.keyword s
  if word ∈ ["desktop", "python", "py"] then .ok .desktop
  else if word ∈ ["browser", "javascript", "js"] then .ok .browser
  else .error ⟨word⟩

def ofName? (s : String) : Option Target := all.find? (·.name == s)

theorem ofName?_name (target : Target) : ofName? target.name = some target := by
  cases target <;> decide

end Target

end FlowScript
