/-
Experiments as they are drawn: a graph of typed nodes, and a table of
properties by node id. `toJson` is the stored form of each, its members in
the order of the format.
-/
import FlowScript.Identifier
import FlowScript.Json.Basic

namespace FlowScript

structure Node where
  /-- What the node is called in its graph. -/
  id : String
  /-- What the node shows or does. -/
  type : String
  /-- What the node itself says about its properties. -/
  data : Dict Json

/-- The nodes of an experiment in the order they run, and the connections
drawn between them, which mean nothing here. -/
structure Graph where
  nodes : List Node
  edges : List Json

/-- A graph with the properties that are kept beside it, by node id. -/
structure Experiment where
  graph : Graph
  properties : Dict Json

namespace Node

/-- A node that says nothing about its properties. -/
def bare (id type : String) : Node := { id, type, data := [] }

def withLabel (node : Node) (label : String) : Node :=
  { node with data := node.data.insert "label" (.str label) }

/-- The label of the node, if it is a text. -/
def label? (node : Node) : Option String := (node.data.get? "label").bind Json.Tree.text?

def toJson (node : Node) : Json :=
  .obj [("id", .str node.id), ("type", .str node.type), ("data", .obj node.data)]

end Node

def Graph.toJson (graph : Graph) : Json :=
  .obj [("nodes", .arr (graph.nodes.map Node.toJson)), ("edges", .arr graph.edges)]

def Experiment.toJson (e : Experiment) : Json :=
  .obj [("react_flow", e.graph.toJson), ("component_props", .obj e.properties)]

end FlowScript
