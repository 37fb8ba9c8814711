/-
Paths as texts: names with slashes between them. Joining keeps what was
written, so that messages show paths as the user gave them.
-/
import FlowScript.Text.Split

namespace FlowScript

namespace Path

def isAbsolute (path : String) : Bool := path.toList.head? == some '/'

/-- `path` as seen from the directory `dir`: an absolute path stays as it is. -/
def join (dir path : String) : String :=
  if isAbsolute path || dir.isEmpty then path
  else if dir.toList.getLast? == some '/' then dir ++ path
  else dir ++ "/" ++ path

/-- The names between the slashes of a path. -/
def names (path : String) : List String := (Text.splitAt '/' path).filter (!·.isEmpty)

/-- The steps a path takes: its names, and a dot for a slash at the end,
which only a directory may have. -/
def steps (path : String) : List String :=
  if path.toList.getLast? == some '/' then names path ++ ["."] else names path

/-- The names of a path in which a dot counts only at its beginning. -/
def components (path : String) : List String :=
  match names path with
  | [] => []
  | name :: rest =>
    if isAbsolute path && name == "." then rest.filter (· != ".") else name :: rest.filter (· != ".")

/-- The name at the end of a path, if it is the name of something. -/
def fileName? (path : String) : Option String :=
  (components path).getLast?.filter fun name => name != "." && name != ".."

/-- A name up to its last dot; a dot at the beginning is part of the name. -/
def stem (name : String) : String :=
  let cs := name.toList
  let kept := (cs.reverse.dropWhile (· != '.')).drop 1
  if kept.isEmpty then name else String.ofList kept.reverse

/-- The name at the end of a path without its extension. -/
def fileStem? (path : String) : Option String := (fileName? path).map stem

end Path

end FlowScript
