/-
Settings of the compiler and of log output. They come in layers: what is
preset, then a file in TOML, then the environment. The layers are put
together first and understood as a whole, and a whole that can be understood
is still checked for values that make no sense.
-/
import FlowScript.Files.Tree
import FlowScript.Settings.Environment
import FlowScript.Target.Basic
import FlowScript.Toml.Reader

namespace FlowScript

/-- How lines of the log are laid out. -/
inductive LogFormat where
  | pretty
  | compact
  | json
deriving DecidableEq, Repr

namespace LogFormat

def all : List LogFormat := [.pretty, .compact, .json]

def name : LogFormat → String
  | .pretty => "pretty"
  | .compact => "compact"
  | .json => "json"

end LogFormat

/-- The settings of a run. -/
structure Settings where
  maxNodes : Nat
  /-- Where templates are looked for, below the name of each target. -/
  templateDir : Option String
  /-- The targets compiled for when none is asked for. -/
  targets : List Target
  /-- What the log shows. -/
  level : String
  format : LogFormat
deriving DecidableEq, Repr

namespace Settings

/-- Why there are no settings. -/
inductive Fault where
  /-- A source cannot be read or does not say what settings are. -/
  | unreadable
  /-- A file does not exist. -/
  | fileMissing (path : String)
  | noNodes
  | noTargets
  | unknownLevel (level : String)
deriving DecidableEq, Repr

def levels : List String := ["trace", "debug", "info", "warn", "error"]

def Fault.message : Fault → String
  | .unreadable => "settings cannot be read"
  | .fileMissing path => "config file '" ++ path ++ "' not found"
  | .noNodes => "compiler.max_nodes must be > 0"
  | .noTargets => "compiler.targets must name at least one target"
  | .unknownLevel level =>
    "logging.level '" ++ level ++ "' must be one of: " ++ String.intercalate ", " levels

/-- The settings that are preset. -/
def preset : Settings :=
  { maxNodes := 5000, templateDir := none, targets := Target.all, level := "info", format := .pretty }

/-- The preset settings as a source. -/
def presetValue : Value :=
  .table
    [("compiler", .table
        [("max_nodes", .natural preset.maxNodes),
          ("targets", .list (preset.targets.map fun t => .text t.name))]),
      ("logging", .table [("format", .text preset.format.name), ("level", .text preset.level)])]

/-! ## Understanding values -/

/-- The fields of a table, which may also be given as a list in the order of the fields. -/
def fields? (names : List String) : Value → Option (Dict Value)
  | .table entries => some entries
  | .list items => some (names.zip items)
  | _ => none

/-- A field, or what stands for a missing one. -/
def field {α : Type} (read : Value → Option α) (default : α) (entries : Dict Value) (name : String) :
    Option α :=
  match entries.get? name with
  | some v => read v
  | none => some default

/-- Where numbers of nodes end. -/
def countBound : Nat := 0x10000000000000000

def readCount : Value → Option Nat
  | .natural n => if n < countBound then some n else none
  | .integer n => if 0 ≤ n ∧ n.toNat < countBound then some n.toNat else none
  | _ => none

def readText : Value → Option String
  | .text s => some s
  | _ => none

/-- A path, or nothing. -/
def readPath : Value → Option (Option String)
  | .empty => some none
  | .text s => some (some s)
  | _ => none

/-- One of several things by its name, or by its name as the key of nothing. -/
def readChoice {α : Type} (all : List α) (name : α → String) : Value → Option α
  | .text s => all.find? fun x => name x == s
  | .table ((key, .empty) :: _) => all.find? fun x => name x == key
  | _ => none

def readTargets : Value → Option (List Target)
  | .list items => items.mapM (readChoice Target.all Target.name)
  | _ => none

/-- The settings that a source says, with what is preset for what is missing. -/
def ofValue? (v : Value) : Option Settings := do
  let whole ← fields? ["compiler", "logging"] v
  let compiler ← field (fields? ["max_nodes", "template_dir", "targets"]) [] whole "compiler"
  let logging ← field (fields? ["level", "format"]) [] whole "logging"
  let maxNodes ← field readCount preset.maxNodes compiler "max_nodes"
  let templateDir ← field readPath preset.templateDir compiler "template_dir"
  let targets ← field readTargets preset.targets compiler "targets"
  let level ← field readText preset.level logging "level"
  let format ← field (readChoice LogFormat.all LogFormat.name) preset.format logging "format"
  some { maxNodes, templateDir, targets, level, format }

/-- Settings that make sense, or what does not. -/
def check (s : Settings) : Except Fault Settings :=
  if s.maxNodes = 0 then .error .noNodes
  else if s.targets = [] then .error .noTargets
  else if Text.keyword s.level ∉ levels then .error (.unknownLevel s.level)
  else .ok s

/-- The settings of a source that is complete. -/
def ofValue (v : Value) : Except Fault Settings :=
  match ofValue? v with
  | some s => s.check
  | none => .error .unreadable

/-- The preset settings under those of a source. -/
def ofOverlay (v : Value) : Except Fault Settings :=
  match v with
  | .table _ => ofValue (presetValue.overlay v)
  | _ => .error .unreadable

/-- A text in TOML as a source of settings. -/
def readToml (s : String) : Option Value := (Toml.read s).bind Value.ofFile?

/-- The preset settings under those of a text in TOML. -/
def ofToml (s : String) : Except Fault Settings :=
  match readToml s with
  | some v => ofOverlay v
  | none => .error .unreadable

/-- A file of settings as a source. -/
def readFile (fs : FileSystem) (path : String) : Except Fault Value :=
  match fs.open? path with
  | .ok (.file content) =>
    match (String.fromUTF8? content).bind readToml with
    | some v => .ok v
    | none => .error .unreadable
  | _ => .error (.fileMissing path)

/-- The settings of a run: preset, from a file if one is named, and from the environment. -/
def load (fs : FileSystem) (environment : List (String × String)) (path? : Option String) :
    Except Fault Settings := do
  let base ← match path? with
    | none => pure presetValue
    | some path => (readFile fs path).map presetValue.overlay
  ofValue (base.overlay (Environment.source environment))

end Settings

end FlowScript
