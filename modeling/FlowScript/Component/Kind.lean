/-
Kinds of components. A kind turns nodes of one type into pieces of a program
and says which names those bind. Most kinds only find values for the fields
of a template: `Kind.filling` makes such a kind. Which kinds there are is a
`Palette`, by type.
-/
import FlowScript.Component.Property
import FlowScript.Experiment.Resolved
import FlowScript.Target.Literal
import FlowScript.Template.Collection

namespace FlowScript

namespace Component

/-- Why a node cannot be rendered. -/
inductive NodeFault where
  | noTemplate (name : String)
  | unfilled (cause : Template.Failure)
  /-- The node's entry of the property table is no object. -/
  | oddEntry (found : Json.Kind)
  | property (cause : PropertyFault)
deriving DecidableEq, Repr

def NodeFault.message : NodeFault → String
  | .noTemplate name => "no template '" ++ name ++ "'"
  | .unfilled cause => cause.message
  | .oddEntry found => "component properties must be an object, got " ++ found.described
  | .property cause => cause.message

/-- What every component template may use: the identifier, the identifier as
a text of the target language, and for comments the node's label, type and
id. -/
def baseContext (target : Target) (node : Node.Resolved) : Template.Context :=
  Dict.ofList
    [("label", node.label),
      ("name", target.textLiteral node.label),
      ("display_label", Identifier.commentSafe node.displayLabel),
      ("node_type", Identifier.commentSafe node.type),
      ("node_id", Identifier.commentSafe node.id)]

/-- How nodes of one type become pieces of a program. -/
structure Kind where
  type : String
  /-- The names that the piece of a node with this identifier binds. -/
  boundNames : String → List String
  /-- The piece of a node, with its properties in the table, by the templates of a target. -/
  render : Node.Resolved → Dict Json → Template.Collection → Except NodeFault String

/-- Values for the fields of a template, found from a node and its properties. -/
abbrev Filling := Node.Resolved → Properties → Target → Except PropertyFault Template.Context

/-- A piece of a program: the template of a type filled with the values for a node. -/
def fillTemplate (type : String) (values : Filling) (node : Node.Resolved) (entry : Dict Json)
    (templates : Template.Collection) : Except NodeFault String :=
  let name := templates.target.componentTemplate type
  match templates.get? name with
  | none => .error (.noTemplate name)
  | some template =>
    match values node { entry, data := node.data } templates.target with
    | .error cause => .error (.property cause)
    | .ok context =>
      match template.render context with
      | .error cause => .error (.unfilled cause)
      | .ok code => .ok code

/-- The kind whose pieces are filled templates. -/
def Kind.filling (type : String) (boundNames : String → List String) (values : Filling) : Kind :=
  { type, boundNames, render := fillTemplate type values }

/-- Kinds of components by type. -/
abbrev Palette := Dict Kind

/-- The kinds of a list; the last of one type counts. -/
def Palette.ofList (kinds : List Kind) : Palette := Dict.ofList (kinds.map fun k => (k.type, k))

end Component

end FlowScript
