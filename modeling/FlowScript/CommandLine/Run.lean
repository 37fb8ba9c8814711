/-
The commands, as functions of the files and the environment. A compilation
is prepared as a whole before anything is written; the targets are then
compiled and written one after the other, and the first that fails ends the
run. What was written before stays, and strictness only turns findings into
a failure at the end.
-/
import FlowScript.CommandLine.Fault
import FlowScript.CommandLine.Help
import FlowScript.Program.Compiler

namespace FlowScript

namespace CommandLine

def readExperiment (fs : FileSystem) (path : String) : Except Failure Experiment :=
  match fs.open? path with
  | .error cause => .error (.unopened path cause)
  | .ok (.dir _) => .error (.malformed .unreadable)
  | .ok (.file content) =>
    match Experiment.ofBytes content with
    | .ok experiment => .ok experiment
    | .error cause => .error (.malformed cause)

/-- The experiment that a command is about. -/
def openInput (fs : FileSystem) (path : String) : Except Fault Experiment :=
  match readExperiment fs path with
  | .ok experiment => .ok experiment
  | .error cause => .error (.unread path cause)

/-! ## Compiling -/

/-- A compilation that is ready to run. -/
structure Job where
  name : String
  experiment : Experiment
  compilers : List Compiler
  /-- The directory for the programs, which exists. -/
  output : String
  files : FileSystem

/-- The name that was given, or that of the input without its extension. -/
def jobName (options : CompileOptions) : Except Fault String :=
  match options.name.or (Path.fileStem? options.input) with
  | some name => .ok name
  | none => .error .nameless

/-- The compilers for targets, all or none. -/
def jobCompilers (fs : FileSystem) (settings : Settings) : List Target → Except Fault (List Compiler)
  | [] => .ok []
  | target :: targets =>
    match Compiler.ofSettings fs settings target with
    | .error cause => .error (.unloaded cause)
    | .ok compiler => (jobCompilers fs settings targets).map (compiler :: ·)

/-- The settings with what the command line says about templates. -/
def jobSettings (settings : Settings) (options : CompileOptions) : Settings :=
  { settings with templateDir := options.templates.or settings.templateDir }

/-- Everything that a compilation needs before it writes. -/
def prepare (fs : FileSystem) (settings : Settings) (options : CompileOptions) : Except Fault Job := do
  let experiment ← openInput fs options.input
  let name ← jobName options
  let compilers ← jobCompilers fs (jobSettings settings options) (options.targets.getD settings.targets)
  match fs.makeDirs options.output with
  | .error cause => .error (.noDirectory options.output cause)
  | .ok files => .ok { name, experiment, compilers, output := options.output, files }

namespace Job

/-- Where the program for a target goes. -/
def path (job : Job) (target : Target) : String :=
  Path.join job.output (Identifier.sanitize job.name ++ "." ++ target.extension)

end Job

def warning (target : Target) (finding : Finding) : String :=
  "warning[" ++ target.name ++ "]: " ++ finding.message

/-- What is said of a program that was written. -/
def wrote (path : String) (report : Report) : String :=
  "wrote " ++ path ++ " (" ++ report.target.codeField ++ " field, " ++ toString report.fragments.length
    ++ " nodes emitted, " ++ toString report.omitted ++ " omitted, fingerprint "
    ++ report.fingerprint.text ++ ")"

/-- How far a compilation has come. -/
structure Progress where
  files : FileSystem
  notes : List String
  findings : Nat

def compileOne (job : Job) (compiler : Compiler) (p : Progress) : Progress × Option Fault :=
  match compiler.compile job.name job.experiment with
  | .error cause => (p, some (.uncompiled compiler.target cause))
  | .ok report =>
    let found := report.findings.map (warning compiler.target)
    let path := job.path compiler.target
    let p := { p with notes := p.notes ++ found, findings := p.findings + report.findings.length }
    match p.files.write path report.source.toUTF8 with
    | .error cause => (p, some (.unwritten path cause))
    | .ok files => ({ p with files, notes := p.notes ++ [wrote path report] }, none)

/-- Compiles and writes in turn, up to the first that fails. -/
def compileEach (job : Job) : List Compiler → Progress → Progress × Option Fault
  | [], p => (p, none)
  | compiler :: compilers, p =>
    match compileOne job compiler p with
    | (p, none) => compileEach job compilers p
    | (p, some fault) => (p, some fault)

/-- What a run leaves behind. -/
structure Outcome where
  files : FileSystem
  answer : List String
  notes : List String
  /-- The code that the run ends with: zero if it succeeds. -/
  code : Nat

/-- The end of a run that may have failed. -/
def finish (p : Progress) (fault? : Option Fault) : Outcome :=
  match fault? with
  | none => { files := p.files, answer := [], notes := p.notes, code := 0 }
  | some fault => { files := p.files, answer := [], notes := p.notes ++ fault.report, code := 1 }

/-- What strictness makes of a compilation that came to its end. -/
def verdict (strict : Bool) (p : Progress) : Option Fault → Option Fault
  | some fault => some fault
  | none => if strict && p.findings != 0 then some (.findings p.findings) else none

def compile (fs : FileSystem) (settings : Settings) (options : CompileOptions) : Outcome :=
  match prepare fs settings options with
  | .error fault => finish { files := fs, notes := [], findings := 0 } (some fault)
  | .ok job =>
    let (p, fault?) := compileEach job job.compilers { files := job.files, notes := [], findings := 0 }
    finish p (verdict options.strict p fault?)

/-! ## Checking -/

/-- What is said of a node whose type has no kind. -/
def skipNote (node : Node) : String :=
  "note: node '" ++ node.id ++ "' has unsupported type '" ++ node.type ++ "' and will be skipped"

/-- The nodes of an experiment that a compilation leaves out for their type. -/
def skipped (experiment : Experiment) : List Node :=
  experiment.graph.nodes.filter fun node => (Component.builtin.get? node.type).isNone

/-- What is said of an experiment that can be read. -/
def census (experiment : Experiment) : String :=
  "ok: " ++ toString experiment.graph.nodes.length ++ " nodes, " ++ toString experiment.graph.edges.length
    ++ " edges, " ++ toString experiment.properties.length ++ " property entries"

def check (fs : FileSystem) (input : String) : Outcome :=
  match openInput fs input with
  | .error fault => { files := fs, answer := [], notes := fault.report, code := 1 }
  | .ok experiment =>
    { files := fs, answer := [census experiment], notes := (skipped experiment).map skipNote, code := 0 }

/-! ## Runs -/

/-- Runs a command with the settings it finds. -/
def runCommand (fs : FileSystem) (environment : List (String × String)) (config : Option String)
    (command : Command) : Outcome :=
  match Settings.load fs environment config with
  | .error cause => { files := fs, answer := [], notes := (Fault.unsettled cause).report, code := 1 }
  | .ok settings =>
    match command with
    | .compile options => compile fs settings options
    | .check input => check fs input

/-- What is said of arguments that make no sense. -/
def misuseNote : List String := ["error: the arguments make no sense", "", "For more information, try '--help'."]

def run (fs : FileSystem) (environment : List (String × String)) (args : List String) : Outcome :=
  match read args with
  | .misuse => { files := fs, answer := [], notes := misuseNote, code := 2 }
  | .version => { files := fs, answer := versionLines, notes := [], code := 0 }
  | .help topic => { files := fs, answer := helpLines topic, notes := [], code := 0 }
  | .run config command => runCommand fs environment config command

end CommandLine

end FlowScript
