/-
Findings about the nodes of a graph: what was left out of a program and why,
and which names clash.
-/
import FlowScript.Component.Kind

namespace FlowScript

/-- What is found about a node. -/
inductive Finding.What where
  /-- There is no kind of component for the node's type; the node is left out. -/
  | unknownType
  /-- The node cannot be rendered and is left out. -/
  | failed (cause : Component.NodeFault)
  /-- An earlier node binds the same name. -/
  | collision (name : String) (firstId : String)
  /-- The node binds a name that is not free in the target. -/
  | reserved (name : String)
deriving DecidableEq, Repr

/-- Something found about a node while it was compiled. -/
structure Finding where
  nodeId : String
  nodeType : String
  what : Finding.What
deriving DecidableEq, Repr

namespace Finding

def What.message : What → String
  | .unknownType => "unsupported node type, skipped"
  | .failed cause => "render failed, skipped: " ++ cause.message
  | .collision name firstId => "identifier '" ++ name ++ "' is also used by node '" ++ firstId ++ "'"
  | .reserved name => "identifier '" ++ name ++ "' is reserved in the target language"

def message (f : Finding) : String :=
  "node '" ++ f.nodeId ++ "' (" ++ f.nodeType ++ "): " ++ f.what.message

def omits (f : Finding) : Bool :=
  match f.what with
  | .unknownType => true
  | .failed _ => true
  | _ => false

end Finding

end FlowScript
