/-
The shape of stored experiments. `problems` finds everything that is wrong
with a document, each fault with the path to it, in the order of the
document: node by node, then the edges, then the table of properties. A part
whose container is broken is not looked at.
-/
import FlowScript.Json.Basic

namespace FlowScript

namespace Shape

/-- One step of a path into a document. -/
inductive Step where
  | field (name : String)
  | item (index : Nat)
deriving DecidableEq, Repr

def Step.text : Step → String
  | .field name => "." ++ name
  | .item index => "[" ++ toString index ++ "]"

/-- A path from the root of a document. -/
abbrev Location := List Step

/-- The path with a dollar sign for the root. -/
def Location.text (at_ : Location) : String := "$" ++ String.join (at_.map Step.text)

/-- What can be wrong at one place. -/
inductive Violation where
  | documentNotObject
  | noGraph
  | graphNotObject
  | noNodes
  | nodesNotList
  | edgesNotList
  | nodeNotObject
  | absent
  | empty
  | notText
  | dataNotObject
  | tableNotObject
deriving DecidableEq, Repr

def Violation.message : Violation → String
  | .documentNotObject => "payload must be a JSON object"
  | .noGraph => "missing graph"
  | .graphNotObject => "graph must be an object"
  | .noNodes => "missing node list"
  | .nodesNotList => "node list must be an array"
  | .edgesNotList => "edges must be an array"
  | .nodeNotObject => "node must be an object"
  | .absent => "missing"
  | .empty => "must be non-empty"
  | .notText => "must be a string"
  | .dataNotObject => "data must be an object"
  | .tableNotObject => "must be an object"

/-- One fault of a document and where it is. -/
structure Problem where
  location : Location
  violation : Violation
deriving DecidableEq, Repr

/-- The path and what is wrong; at the root only what is wrong. -/
def Problem.message (p : Problem) : String :=
  if p.location = [] then p.violation.message
  else Location.text p.location ++ ": " ++ p.violation.message

/-- What is wrong with a text that must be there. -/
def textViolation? (nonEmpty : Bool) : Option Json → Option Violation
  | none => some .absent
  | some (.str s) => if nonEmpty && s.isEmpty then some .empty else none
  | some _ => some .notText

/-- What is wrong with an object that may be missing or null. -/
def objectViolation? (violation : Violation) : Option Json → Option Violation
  | none => none
  | some .null => none
  | some (.obj _) => none
  | some _ => some violation

/-- What is wrong with a list that may be missing or null. -/
def listViolation? (violation : Violation) : Option Json → Option Violation
  | none => none
  | some .null => none
  | some (.arr _) => none
  | some _ => some violation

/-- The fault at a place, if there is one. -/
def found (location : Location) (violation? : Option Violation) : List Problem :=
  (violation?.map fun violation => { location, violation }).toList

def nodeProblems (at_ : Location) : Json → List Problem
  | .obj members =>
    found (at_ ++ [.field "id"]) (textViolation? true (Dict.get? members "id"))
      ++ found (at_ ++ [.field "type"]) (textViolation? false (Dict.get? members "type"))
      ++ found (at_ ++ [.field "data"]) (objectViolation? .dataNotObject (Dict.get? members "data"))
  | _ => found at_ (some .nodeNotObject)

/-- What is wrong with the nodes from `index` on. -/
def nodesProblems (at_ : Location) (index : Nat) : List Json → List Problem
  | [] => []
  | node :: rest => nodeProblems (at_ ++ [.item index]) node ++ nodesProblems at_ (index + 1) rest

def nodeListProblems (at_ : Location) : Option Json → List Problem
  | none => found at_ (some .noNodes)
  | some (.arr nodes) => nodesProblems at_ 0 nodes
  | some _ => found at_ (some .nodesNotList)

def graphProblems (at_ : Location) : Json → List Problem
  | .obj members =>
    nodeListProblems (at_ ++ [.field "nodes"]) (Dict.get? members "nodes")
      ++ found (at_ ++ [.field "edges"]) (listViolation? .edgesNotList (Dict.get? members "edges"))
  | _ => found at_ (some .graphNotObject)

/-- What is wrong with a stored experiment. -/
def documentProblems : Json → List Problem
  | .obj members =>
    (match Dict.get? members "react_flow" with
      | none => found [.field "react_flow"] (some .noGraph)
      | some graph => graphProblems [.field "react_flow"] graph)
      ++ found [.field "component_props"]
        (objectViolation? .tableNotObject (Dict.get? members "component_props"))
  | _ => found [] (some .documentNotObject)

end Shape

end FlowScript
