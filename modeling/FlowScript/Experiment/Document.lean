/-
Experiments read from documents. The shape is checked first, so that a fault
comes with all problems of the document; what has no problems always
converts. Fields that are missing or null are empty, and unknown ones are
passed over.
-/
import FlowScript.Experiment.Basic
import FlowScript.Experiment.Shape
import FlowScript.Json.Reader

namespace FlowScript

namespace Experiment

/-- Why a document is not an experiment. -/
inductive Fault where
  /-- The text is not a document at all. -/
  | unreadable
  /-- The document has problems. -/
  | misshapen (problems : List Shape.Problem)
  /-- The document has no problems and does not convert. -/
  | unconvertible
deriving DecidableEq, Repr

def Fault.message : Fault → String
  | .unreadable => "parse payload JSON: not a JSON document"
  | .misshapen problems => String.intercalate "\n" (problems.map Shape.Problem.message)
  | .unconvertible => "not an experiment"

/-- An object that may be missing or null. -/
def tableOrEmpty : Option Json → Option (Dict Json)
  | none => some []
  | some .null => some []
  | some (.obj members) => some members
  | some _ => none

/-- A list that may be missing or null. -/
def listOrEmpty : Option Json → Option (List Json)
  | none => some []
  | some .null => some []
  | some (.arr items) => some items
  | some _ => none

end Experiment

/-- The node that a document describes. -/
def Node.ofJson? (t : Json) : Option Node := do
  let members ← t.members?
  let id ← (Dict.get? members "id").bind Json.Tree.text?
  let type ← (Dict.get? members "type").bind Json.Tree.text?
  let data ← Experiment.tableOrEmpty (Dict.get? members "data")
  some { id, type, data }

namespace Graph

def ofJson? (t : Json) : Option Graph := do
  let members ← t.members?
  let items ← (Dict.get? members "nodes").bind Json.Tree.items?
  let nodes ← items.mapM Node.ofJson?
  let edges ← Experiment.listOrEmpty (Dict.get? members "edges")
  some { nodes, edges }

/-- The graph of a document, or what is wrong with it. -/
def ofDocument (t : Json) : Except Experiment.Fault Graph :=
  match Shape.graphProblems [] t with
  | [] => (ofJson? t).elim (.error .unconvertible) .ok
  | problems => .error (.misshapen problems)

end Graph

namespace Experiment

def ofJson? (t : Json) : Option Experiment := do
  let members ← t.members?
  let graph ← (Dict.get? members "react_flow").bind Graph.ofJson?
  let properties ← tableOrEmpty (Dict.get? members "component_props")
  some { graph, properties }

/-- The experiment of a document, or what is wrong with it. -/
def ofDocument (t : Json) : Except Fault Experiment :=
  match Shape.documentProblems t with
  | [] => (ofJson? t).elim (.error .unconvertible) .ok
  | problems => .error (.misshapen problems)

/-- The experiment that a text holds. -/
def ofText (s : String) : Except Fault Experiment :=
  match Json.read s with
  | some t => ofDocument t
  | none => .error .unreadable

/-- The experiment that a file holds. -/
def ofBytes (content : ByteArray) : Except Fault Experiment :=
  match String.fromUTF8? content with
  | some s => ofText s
  | none => .error .unreadable

end Experiment

end FlowScript
