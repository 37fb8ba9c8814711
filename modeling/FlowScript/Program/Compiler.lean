/-
Compiling experiments. Each node becomes a fragment or is left out, by
itself and its own properties alone; names are then compared in the order of
the nodes, and the fragments are put together. Only a missing or unfillable
template of the whole program, a document that is no graph and a graph that
is too large make the whole fail.
-/
import FlowScript.Component.Builtin
import FlowScript.Program.Assembly
import FlowScript.Program.Fingerprint
import FlowScript.Program.Finding
import FlowScript.Target.Reserved

namespace FlowScript

/-- What programs are compiled with: the templates of a target, the kinds of
components, and how many nodes a graph may have. -/
structure Compiler where
  templates : Template.Collection
  palette : Component.Palette
  maxNodes : Nat

/-- What came of a compilation. -/
structure Report where
  name : String
  target : Target
  source : String
  fingerprint : Fingerprint
  findings : List Finding
  fragments : List Fragment

namespace Report

def isClean (r : Report) : Bool := r.findings.isEmpty

def omitted (r : Report) : Nat := (r.findings.filter Finding.omits).length

end Report

namespace Compiler

/-- What becomes of a node. -/
inductive Outcome where
  | unknownType
  | failed (cause : Component.NodeFault)
  | emitted (code : String) (names : List String)
deriving DecidableEq, Repr

/-- A compiler with given templates and kinds. -/
def ofTemplates (templates : Template.Collection) (palette : Component.Palette) : Compiler :=
  { templates, palette, maxNodes := Settings.preset.maxNodes }

/-- The compiler for a target with all that comes with the library. -/
def builtin (target : Target) : Compiler := ofTemplates (.embedded target) Component.builtin

/-- The compiler that settings ask for. Templates are looked for below the
target's name, if there is a directory of that name. -/
def ofSettings (fs : FileSystem) (settings : Settings) (target : Target) : Except Failure Compiler :=
  let withTemplates := fun templates : Template.Collection =>
    { ofTemplates templates Component.builtin with maxNodes := settings.maxNodes }
  match settings.templateDir with
  | none => .ok (withTemplates (.embedded target))
  | some dir =>
    let path := Path.join dir target.name
    if fs.isDir path then
      match Template.Collection.withOverrides target fs path with
      | .ok templates => .ok (withTemplates templates)
      | .error cause => .error (.unloaded cause)
    else .ok (withTemplates (.embedded target))

def target (c : Compiler) : Target := c.templates.target

/-- What becomes of a node, by itself and its entry in the table. -/
def outcome (c : Compiler) (table : Dict Json) (node : Node) : Outcome :=
  match c.palette.get? node.type with
  | none => .unknownType
  | some kind =>
    match Node.oddEntry? node.id table with
    | some found => .failed (.oddEntry found)
    | none =>
      let (resolved, entry) := node.resolve table
      match kind.render resolved entry c.templates with
      | .error cause => .failed cause
      | .ok code => .emitted code (kind.boundNames resolved.label)

/-- Names in the order they were bound, with the node that bound them. -/
abbrev Bindings := List (String × String)

/-- What is found about a name that a node binds. -/
def nameFindings (target : Target) (bound : Bindings) (name : String) : List Finding.What :=
  (if target.isReserved name then [.reserved name] else [])
    ++ ((bound.lookup name).map fun firstId => .collision name firstId).toList

/-- What is found about a node, given the names that earlier nodes have bound. -/
def outcomeFindings (target : Target) (bound : Bindings) : Outcome → List Finding.What
  | .unknownType => [.unknownType]
  | .failed cause => [.failed cause]
  | .emitted _ names => names.flatMap (nameFindings target bound)

def Outcome.names : Outcome → List String
  | .emitted _ names => names
  | _ => []

/-- What is found about nodes in turn, given the names that earlier nodes have bound. -/
def findings (target : Target) : Bindings → List (Node × Outcome) → List Finding
  | _, [] => []
  | bound, (node, outcome) :: rest =>
    (outcomeFindings target bound outcome).map (fun what => ⟨node.id, node.type, what⟩)
      ++ findings target (bound ++ outcome.names.map fun name => (name, node.id)) rest

def fragment? : Node × Outcome → Option Fragment
  | (node, .emitted code _) => some { nodeId := node.id, code }
  | _ => none

/-- Compiles a graph with the properties of its nodes. -/
def compileGraph (c : Compiler) (name : String) (graph : Graph) (table : Dict Json) :
    Except Failure Report :=
  if c.templates.assembly?.isNone then .error (.noAssembly c.target.assemblyTemplate)
  else if c.maxNodes < graph.nodes.length then .error (.tooManyNodes graph.nodes.length c.maxNodes)
  else
    let outcomes := graph.nodes.map fun node => (node, c.outcome table node)
    let fragments := outcomes.filterMap fragment?
    match Program.assemble c.templates name fragments with
    | .error e => .error e
    | .ok source =>
      .ok
        { name, target := c.target, source, fingerprint := .ofSource c.target source,
          findings := findings c.target [] outcomes, fragments }

/-- Compiles the graph that a document describes. -/
def compileDocument (c : Compiler) (name : String) (graph : Json) (table : Dict Json) :
    Except Failure Report :=
  if c.templates.assembly?.isNone then .error (.noAssembly c.target.assemblyTemplate)
  else
    match Graph.ofDocument graph with
    | .error cause => .error (.malformed cause)
    | .ok graph => c.compileGraph name graph table

def compile (c : Compiler) (name : String) (e : Experiment) : Except Failure Report :=
  c.compileGraph name e.graph e.properties

end Compiler

end FlowScript
