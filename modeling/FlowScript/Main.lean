/-
The program. It looks at the parts of the file system that its arguments
name, runs on them, and carries out what has changed.
-/
import FlowScript.CommandLine.Run
import FlowScript.Files.Change

namespace FlowScript

namespace Disk

/-- The path from the root to a place. -/
def pathOf (place : List String) : String := "/" ++ String.intercalate "/" place

/-- Whether there is a directory at a place, or something else, or nothing. -/
def isDir? (place : List String) : IO (Option Bool) := do
  try
    let real ← IO.FS.realPath (pathOf place)
    return some (← real.isDir)
  catch _ => return none

def list (place : List String) : IO (List String) := do
  let real ← IO.FS.realPath (pathOf place)
  return (← real.readDir).toList.map (·.fileName)

/-- What is at a place, down to a number of levels. -/
def load (place : List String) : Nat → IO FileTree
  | 0 => return .dir []
  | levels + 1 => do
    if (← isDir? place) = some true then
      let entries ← (← list place).mapM fun name => return (name, ← load (place ++ [name]) levels)
      return .dir entries
    else return .file (← IO.FS.readBinFile (pathOf place))

/-- A directory with the directories in it. -/
def outline (place : List String) : IO FileTree := do
  if (← isDir? place) = some true then
    let names ← (← list place).filterM fun name => return (← isDir? (place ++ [name])) = some true
    return .dir (names.map fun name => (name, .dir []))
  else return .file .empty

/-- Adds what a path leads to, and the directories on the way to it. -/
def mountSteps (look : List String → IO FileTree) (fs : FileSystem) (place : List String) :
    List String → IO FileSystem
  | [] => return fs.put place (← look place)
  | "." :: steps => mountSteps look fs place steps
  | ".." :: steps => mountSteps look fs place.dropLast steps
  | step :: steps => do
    let next := place ++ [step]
    match ← isDir? next with
    | none => return fs
    | some isDir =>
      let fs := match fs.root.find? next with
        | some _ => fs
        | none => fs.put next (if isDir then .dir [] else .file .empty)
      if isDir || steps.isEmpty then mountSteps look fs next steps else return fs

/-- Adds what a path leads to. -/
def mount (look : List String → IO FileTree) (fs : FileSystem) (path : String) : IO FileSystem :=
  if path.isEmpty then return fs else mountSteps look fs (fs.start path) (Path.names path)

/-- The longest way down into a directory. -/
def depth : Nat := 4096

/-- Adds a file or a directory with all it holds. -/
def mountAll (fs : FileSystem) (path : String) : IO FileSystem := mount (fun place => load place depth) fs path

/-- Adds a file. -/
def mountFile (fs : FileSystem) (path : String) : IO FileSystem := mount (fun place => load place 1) fs path

/-- An empty file system in which relative paths start where the program does. -/
def bare : IO FileSystem := do
  let current := Path.names (toString (← IO.FS.realPath "."))
  mountSteps (fun _ => return .dir []) { root := .dir [], current } [] current

/-- Everything that a command looks at. -/
def snapshot (environment : List (String × String)) (config : Option String) (command : CommandLine.Command) :
    IO FileSystem := do
  let fs ← match command with
    | .compile options => mount outline (← bare) options.output
    | .check _ => bare
  let fs ← config.toList.foldlM mountFile fs
  match command, Settings.load fs environment config with
  | .compile options, .ok settings =>
    let templates := ((CommandLine.jobSettings settings options).templateDir).toList.flatMap fun dir =>
      Target.all.map fun target => Path.join dir target.name
    mountFile (← templates.foldlM mountAll fs) options.input
  | .check input, .ok _ => mountFile fs input
  | _, .error _ => return fs

def environment : IO (List (String × String)) := do
  let bytes ← IO.FS.readBinFile "/proc/self/environ"
  let entries := Text.splitAt (Char.ofNat 0) ((String.fromUTF8? bytes).getD "")
  return (entries.filter (!·.isEmpty)).map fun entry =>
    let cs := entry.toList
    (String.ofList (cs.takeWhile (· != '=')), String.ofList ((cs.dropWhile (· != '=')).drop 1))

def perform : Change → IO Unit
  | .directory place => IO.FS.createDirAll (pathOf place)
  | .content place bytes => IO.FS.writeBinFile (pathOf place) bytes

end Disk

end FlowScript

open FlowScript

def main (args : List String) : IO UInt32 := do
  let environment ← Disk.environment
  let fs ← match CommandLine.read args with
    | .run config command => Disk.snapshot environment config command
    | _ => Disk.bare
  let outcome := CommandLine.run fs environment args
  (outcome.files.root.changesFrom fs.root).forM Disk.perform
  outcome.notes.forM IO.eprintln
  outcome.answer.forM IO.println
  return outcome.code.toUInt32
