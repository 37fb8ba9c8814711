/-
Putting a program together: the pieces of the nodes, in order and a blank
line apart, in the template of the whole program.
-/
import FlowScript.Failure
import FlowScript.Target.Literal

namespace FlowScript

/-- The piece of a program that a node has become. -/
structure Fragment where
  nodeId : String
  code : String
deriving DecidableEq, Repr

namespace Program

/-- A text without the ends of lines at its end. -/
def dropNewlines (s : String) : String := String.ofList (Text.dropEnd (· == '\n') s.toList)

/-- The pieces in order, a blank line apart. -/
def body (fragments : List Fragment) : String :=
  String.intercalate "\n\n" (fragments.map fun f => dropNewlines f.code)

/-- The values for the template of the whole program. -/
def assemblyContext (target : Target) (name : String) (fragments : List Fragment) : Template.Context :=
  Dict.ofList [("expName", target.textLiteral name), ("components", body fragments)]

theorem get?_assemblyContext (target : Target) (name : String) (fragments : List Fragment) :
    (assemblyContext target name fragments).get? "expName" = some (target.textLiteral name) ∧
      (assemblyContext target name fragments).get? "components" = some (body fragments) := by
  constructor <;> simp [assemblyContext, Dict.ofList, Dict.insertAll, Dict.get?_insert_of_ne]

def assemble (templates : Template.Collection) (name : String) (fragments : List Fragment) :
    Except Failure String :=
  match templates.assembly? with
  | none => .error (.noAssembly templates.target.assemblyTemplate)
  | some template =>
    match template.render (assemblyContext templates.target name fragments) with
    | .ok source => .ok source
    | .error cause => .error (.unassembled cause)

end Program

end FlowScript
