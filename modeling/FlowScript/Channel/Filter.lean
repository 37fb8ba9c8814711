/-
Topic filters. Topics and filters are texts of levels with slashes between
them; in a filter a plus stands for any one level, and a number sign at the
end for all further levels, of which there may be none.
-/
import FlowScript.Text.Split

namespace FlowScript

namespace Channel

def levels (s : String) : List String := Text.splitAt '/' s

/-- Whether the levels of a filter match the levels of a topic. -/
def levelsMatch : List String → List String → Bool
  | [], [] => true
  | [], _ :: _ => false
  | f :: fs, [] => f == "#" && fs.isEmpty
  | f :: fs, t :: ts => if f = "#" then fs.isEmpty else (f == "+" || f == t) && levelsMatch fs ts

def filterMatches (filter topic : String) : Bool := levelsMatch (levels filter) (levels topic)

end Channel

end FlowScript
