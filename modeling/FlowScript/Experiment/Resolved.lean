/-
Nodes with the names they get in a program. The identifier of a node is its
label made into one, or made from its id where it has no label; its data
then hold the identifier as the label, so that resolving again changes
nothing.
-/
import FlowScript.Experiment.Basic

namespace FlowScript

namespace Node

/-- A node with its identifier. -/
structure Resolved where
  id : String
  type : String
  label : String
  /-- The label as it was given, for comments. -/
  displayLabel : String
  /-- The node's data, with the identifier as its label. -/
  data : Dict Json

/-- The label of a node that has none. -/
def defaultLabel (id : String) : String := Identifier.lead ++ id

/-- The label of a node as it is shown. -/
def displayLabel (node : Node) : String := node.label?.getD (defaultLabel node.id)

/-- The node with its identifier. -/
def resolved (node : Node) : Resolved :=
  let label := Identifier.sanitize node.displayLabel
  { id := node.id, type := node.type, label, displayLabel := node.displayLabel,
    data := node.data.insert "label" (.str label) }

/-- The properties that a table holds for a node; none unless they are an object. -/
def properties (id : String) (table : Dict Json) : Dict Json :=
  ((table.get? id).bind Json.Tree.members?).getD []

/-- The node with its identifier, and its properties in a table. -/
def resolve (node : Node) (table : Dict Json) : Resolved × Dict Json :=
  (node.resolved, properties node.id table)

/-- The kind of a node's entry in a table, if it is neither an object nor null. -/
def oddEntry? (id : String) (table : Dict Json) : Option Json.Kind :=
  match table.get? id with
  | none => none
  | some .null => none
  | some (.obj _) => none
  | some t => some t.kind

end Node

end FlowScript
