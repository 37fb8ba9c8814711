/-
Failures of whole operations, as opposed to findings about single nodes. A
failure holds its cause; `message` is how it is worded, and
`isCompileFailure` tells those that a compilation can end with.
-/
import FlowScript.Channel.Transport
import FlowScript.Experiment.Document
import FlowScript.Settings.Basic
import FlowScript.Template.Collection

namespace FlowScript

/-- The parts of the library whose failures others may word. -/
inductive Area where
  | graph
  | template
  | settings
  | channel
  | other
deriving DecidableEq, Repr

/-- What the wording of the failures of a part begins with. -/
def Area.lead : Area → String
  | .graph => "malformed graph: "
  | .template => "template error: "
  | .settings => "configuration error: "
  | .channel => "telemetry error: "
  | .other => ""

/-- Why an operation fails. -/
inductive Failure where
  | unopened (path : String) (cause : OsError)
  /-- There is no template for the whole program. -/
  | noAssembly (name : String)
  | malformed (cause : Experiment.Fault)
  | tooManyNodes (count limit : Nat)
  | unloaded (cause : Template.LoadFault)
  /-- The template of the whole program cannot be filled. -/
  | unassembled (cause : Template.Failure)
  | unsettled (cause : Settings.Fault)
  | channel (cause : Channel.Fault)
  /-- A failure that somebody else has worded. -/
  | reported (area : Area) (text : String)
deriving DecidableEq, Repr

namespace Failure

def message : Failure → String
  | .unopened path cause => "open payload '" ++ path ++ "': " ++ cause.message
  | .noAssembly name => "missing assembly template '" ++ name ++ "'"
  | .malformed cause => Area.lead .graph ++ cause.message
  | .tooManyNodes count limit =>
    "graph has " ++ toString count ++ " nodes, limit is " ++ toString limit
  | .unloaded cause => Area.lead .template ++ cause.message
  | .unassembled cause => Area.lead .template ++ cause.message
  | .unsettled cause => Area.lead .settings ++ cause.message
  | .channel cause => Area.lead .channel ++ cause.message
  | .reported area text => Area.lead area ++ text

/-- Whether a compilation can end with a failure of this kind. -/
def isCompileFailure : Failure → Bool
  | .noAssembly _ | .malformed _ | .tooManyNodes .. | .unloaded _ | .unassembled _ => true
  | .unopened .. | .unsettled _ | .channel _ => false
  | .reported area _ => area == .graph || area == .template

end Failure

end FlowScript
