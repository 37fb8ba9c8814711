/-
What differs between two states of a directory tree, as the changes that
lead from the first to the second. Nothing is ever taken away, so a change
creates a directory or gives a file its content.
-/
import FlowScript.Files.Tree

namespace FlowScript

/-- A step towards a later state of a directory tree; `place` leads down
from the root of the tree. -/
inductive Change where
  | directory (place : List String)
  | content (place : List String) (bytes : ByteArray)

namespace Change

/-- The change as seen from the directory above. -/
def below (name : String) : Change → Change
  | .directory place => .directory (name :: place)
  | .content place bytes => .content (name :: place) bytes

/-- The path and the content of a file that has changed. -/
def file? : Change → Option (String × ByteArray)
  | .directory _ => none
  | .content place bytes => some (String.intercalate "/" place, bytes)

end Change

namespace FileTree

/-- The entries of what may be a directory. -/
def entries : Option FileTree → List (String × FileTree)
  | some (.dir entries) => entries
  | _ => []

/-- Whether a file is there and has this content. -/
def holds (content : ByteArray) : Option FileTree → Bool
  | some (.file bytes) => bytes == content
  | _ => false

mutual

/-- The changes that lead to a tree from what was in its place, directories
before what they hold. -/
def changesFrom (before : Option FileTree) : FileTree → List Change
  | .file content => if holds content before then [] else [.content [] content]
  | .dir now =>
    (if (before.map isDir).getD false then [] else [.directory []]) ++ entryChanges (entries before) now

/-- The changes that lead to the entries of a directory. -/
def entryChanges (before : List (String × FileTree)) : List (String × FileTree) → List Change
  | [] => []
  | (name, t) :: rest =>
    (t.changesFrom (before.lookup name)).map (Change.below name) ++ entryChanges before rest

end

end FileTree

end FlowScript
