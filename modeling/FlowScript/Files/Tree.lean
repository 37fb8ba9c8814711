/-
Directory trees and the operations on them that a program can see: following
a path, creating directories, writing a file. A `FileSystem` is a tree and
the directory that relative paths start from.
-/
import FlowScript.Files.Path

namespace FlowScript

/-- A file with its content, or a directory with its entries in the order
in which they are listed. -/
inductive FileTree where
  | file (content : ByteArray)
  | dir (entries : List (String × FileTree))

inductive OsError where
  | notFound
  | exists
  | notDirectory
  | isDirectory
  | nameTooLong
deriving DecidableEq, Repr

def OsError.message : OsError → String
  | .notFound => "No such file or directory (os error 2)"
  | .exists => "File exists (os error 17)"
  | .notDirectory => "Not a directory (os error 20)"
  | .isDirectory => "Is a directory (os error 21)"
  | .nameTooLong => "File name too long (os error 36)"

namespace FileTree

def isDir : FileTree → Bool
  | .dir _ => true
  | .file _ => false

/-- What is found by going down through directories. -/
def find? : FileTree → List String → Option FileTree
  | t, [] => some t
  | .file _, _ :: _ => none
  | .dir entries, name :: names => (entries.lookup name).bind fun t => t.find? names

/-- The entries with `tree` under `name`, in place of what was there. -/
def setEntry (entries : List (String × FileTree)) (name : String) (tree : FileTree) : List (String × FileTree) :=
  match entries with
  | [] => [(name, tree)]
  | (n, t) :: rest => if n = name then (n, tree) :: rest else (n, t) :: setEntry rest name tree

/-- The tree with `tree` at a place below directories that exist. -/
def put (tree : FileTree) : List String → FileTree → FileTree
  | [], _ => tree
  | _ :: _, .file content => .file content
  | name :: names, .dir entries =>
    match entries.lookup name with
    | some t => .dir (setEntry entries name (put tree names t))
    | none => if names.isEmpty then .dir (setEntry entries name tree) else .dir entries

mutual

/-- The files of a tree by their path from it, each directory in the order of
its names. -/
def files : FileTree → List (String × ByteArray)
  | .file content => [("", content)]
  | .dir entries => ((entryFiles entries).mergeSort fun a b => decide (a.1 ≤ b.1)).flatMap (·.2)

/-- The files below each entry of a directory, by entry. -/
def entryFiles : List (String × FileTree) → List (String × List (String × ByteArray))
  | [] => []
  | (name, t) :: rest =>
    let below := t.files.map fun p => if p.1.isEmpty then (name, p.2) else (name ++ "/" ++ p.1, p.2)
    (name, below) :: entryFiles rest

end

end FileTree

/-- A directory tree, and the directory that relative paths start from. -/
structure FileSystem where
  root : FileTree
  current : List String

namespace FileSystem

/-- The file system with `tree` at a place below directories that exist. -/
def put (fs : FileSystem) (place : List String) (tree : FileTree) : FileSystem :=
  { fs with root := FileTree.put tree place fs.root }

/-- The longest name in bytes. -/
def nameLimit : Nat := 255

/-- Where a walk ends that starts at `place`: each step needs a directory. -/
def walk (fs : FileSystem) (place : List String) : List String → Except OsError (List String)
  | [] => .ok place
  | step :: steps =>
    match fs.root.find? place with
    | some (.dir entries) =>
      if step = "." then fs.walk place steps
      else if step = ".." then fs.walk place.dropLast steps
      else if nameLimit < step.utf8ByteSize then .error .nameTooLong
      else if (entries.lookup step).isSome then fs.walk (place ++ [step]) steps
      else .error .notFound
    | some (.file _) => .error .notDirectory
    | none => .error .notFound

/-- Where a path starts. -/
def start (fs : FileSystem) (path : String) : List String :=
  if Path.isAbsolute path then [] else fs.current

/-- The place that a path leads to. -/
def resolve (fs : FileSystem) (path : String) : Except OsError (List String) :=
  if path.isEmpty then .error .notFound else fs.walk (fs.start path) (Path.steps path)

/-- What a path leads to. -/
def open? (fs : FileSystem) (path : String) : Except OsError FileTree := do
  let place ← fs.resolve path
  match fs.root.find? place with
  | some t => pure t
  | none => .error .notFound

def isDir (fs : FileSystem) (path : String) : Bool :=
  match fs.open? path with
  | .ok t => t.isDir
  | .error _ => false

/-- Creates what is missing of the directories along a walk. A directory is
not created by its own dot. -/
def makeSteps (fs : FileSystem) (place : List String) : List String → Except OsError FileSystem
  | [] => .ok fs
  | step :: steps =>
    match fs.walk place [step] with
    | .ok next =>
      match fs.root.find? next with
      | some (.file _) => .error (if steps.isEmpty then .exists else .notDirectory)
      | _ => fs.makeSteps next steps
    | .error .notFound =>
      if !steps.isEmpty && steps.all (· == ".") then .error .notFound
      else
        (fs.put (place ++ [step]) (.dir [])).makeSteps (place ++ [step]) steps
    | .error e => .error e

/-- Creates a directory and the ones it is in, as far as they are missing. -/
def makeDirs (fs : FileSystem) (path : String) : Except OsError FileSystem :=
  fs.makeSteps (fs.start path) (Path.names path)

/-- Writes a file, in place of what it held before. -/
def write (fs : FileSystem) (path : String) (content : ByteArray) : Except OsError FileSystem :=
  match (Path.steps path).getLast? with
  | none => .error (if path.isEmpty then .notFound else .isDirectory)
  | some name => do
    let place ← fs.walk (fs.start path) (Path.steps path).dropLast
    match fs.root.find? place with
    | some (.dir entries) =>
      if name = "." ∨ name = ".." then .error .isDirectory
      else if nameLimit < name.utf8ByteSize then .error .nameTooLong
      else
        match entries.lookup name with
        | some (.dir _) => .error .isDirectory
        | _ => pure (fs.put (place ++ [name]) (.file content))
    | some (.file _) => .error .notDirectory
    | none => .error .notFound

end FileSystem

end FlowScript
