/-
The templates of one target by name: those that come with the library, those
of a directory, or the first overlaid with the second. In a directory every
file that ends in `.tmpl` is a template, named by its path without the
ending.
-/
import FlowScript.Files.Tree
import FlowScript.Template.Basic
import FlowScript.Template.Embedded

namespace FlowScript

namespace Template

/-- Templates of one target: their sources by name. -/
structure Collection where
  target : Target
  sources : Dict String

/-- Why templates cannot be loaded from a directory. -/
inductive LoadFault where
  | directory (path : String) (cause : OsError)
  | notText (path : String)
deriving DecidableEq, Repr

def LoadFault.message : LoadFault → String
  | .directory path cause => "read template dir '" ++ path ++ "': " ++ cause.message
  | .notText path => "read template '" ++ path ++ "': stream did not contain valid UTF-8"

/-- How the names of template files end. -/
def ending : String := ".tmpl"

namespace Collection

/-- The templates that come with the library. -/
def embedded (target : Target) : Collection :=
  { target, sources := Dict.ofList (Embedded.sources target) }

/-- Templates given one by one; the last of one name counts. -/
def ofList (target : Target) (sources : List (String × String)) : Collection :=
  { target, sources := Dict.ofList sources }

def get? (c : Collection) (name : String) : Option Template :=
  (c.sources.get? name).map fun source => { name, source }

/-- The template of the whole program. -/
def assembly? (c : Collection) : Option Template := c.get? c.target.assemblyTemplate

/-- The template files below a directory: their names, their paths and what they hold. -/
def templateFiles (path : String) (tree : FileTree) : List (String × String × ByteArray) :=
  tree.files.filterMap fun (below, content) =>
    (Text.dropEnding? ending below).map fun name => (name, Path.join path below, content)

def readFile (file : String × String × ByteArray) : Except LoadFault (String × String) :=
  match String.fromUTF8? file.2.2 with
  | some source => .ok (file.1, source)
  | none => .error (.notText file.2.1)

/-- The collection with the templates of a directory added to it. -/
def load (c : Collection) (fs : FileSystem) (path : String) : Except LoadFault Collection :=
  match fs.open? path with
  | .error cause => .error (.directory path cause)
  | .ok (.file _) => .error (.directory path .notDirectory)
  | .ok tree => do
    let sources ← (templateFiles path tree).mapM readFile
    pure { c with sources := c.sources.insertAll sources }

/-- The templates of a directory. -/
def ofDirectory (target : Target) (fs : FileSystem) (path : String) : Except LoadFault Collection :=
  { target, sources := [] : Collection }.load fs path

/-- The templates that come with the library, replaced or extended by those of
a directory. -/
def withOverrides (target : Target) (fs : FileSystem) (path : String) : Except LoadFault Collection :=
  (embedded target).load fs path

end Collection

end Template

end FlowScript
