/-
Splitting a text at a character. A text with n such characters has n + 1
pieces, empty ones included; `intercalate_splitAt` says that joining the pieces
at the character gives the text back.
-/
namespace FlowScript

namespace Text

/-- The pieces of a text between the places where a character stands. -/
def splitAt (c : Char) (s : String) : List String := (s.toList.splitOn c).map String.ofList

/-- The text without `ending`, if it ends so. -/
def dropEnding? (ending : String) (s : String) : Option String :=
  let keep := s.toList.length - ending.toList.length
  if s.toList.drop keep = ending.toList then some (String.ofList (s.toList.take keep)) else none

theorem intercalate_splitAt (c : Char) (s : String) :
    String.intercalate (String.singleton c) (splitAt c s) = s := by
  apply String.toList_inj.1
  simp [splitAt, Function.comp_def, String.toList_intercalate, List.intercalate_splitOn]

/-- What stands before a character and behind it is split by itself. -/
theorem splitAt_append_singleton (c : Char) (s t : String) :
    splitAt c (s ++ String.singleton c ++ t) = splitAt c s ++ splitAt c t := by
  rw [splitAt, String.toList_append, String.toList_append, String.toList_singleton, List.append_assoc,
    List.singleton_append, List.splitOn_append_cons_self, List.map_append]
  rfl

theorem splitAt_eq_singleton {c : Char} {s : String} (h : c ∉ s.toList) : splitAt c s = [s] := by
  rw [splitAt, List.splitOn_eq_singleton h, List.map_singleton, String.ofList_toList]

/-- What is left before a dropped ending, followed by it, is the text. -/
theorem eq_append_of_dropEnding? {ending s t : String} (h : dropEnding? ending s = some t) :
    s = t ++ ending := by
  simp only [dropEnding?] at h
  split at h
  · rename_i hd
    obtain rfl := Option.some.inj h
    have cut := List.take_append_drop (s.toList.length - ending.toList.length) s.toList
    rw [hd] at cut
    apply String.toList_inj.1
    rw [String.toList_append, String.toList_ofList, cut]
  · cases h

theorem dropEnding?_append (ending t : String) : dropEnding? ending (t ++ ending) = some t := by
  simp [dropEnding?]

theorem dropEnding?_eq_some_iff {ending s t : String} : dropEnding? ending s = some t ↔ s = t ++ ending :=
  ⟨eq_append_of_dropEnding?, fun h => h ▸ dropEnding?_append ending t⟩

end Text

end FlowScript
