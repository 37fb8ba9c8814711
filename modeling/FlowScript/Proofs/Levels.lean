/-
Which topics a filter is for, level by level. The filter is walked together
with the topic; what that comes to is said of their levels at once
(`filterMatches_iff`): either each level of the topic has one level of the
filter that is for it, or the filter ends in a number sign and what stands
before that is so for the first levels of the topic. Levels are what stands
between slashes, empty ones included.
-/
import FlowScript.Channel.Filter
import Mathlib.Data.List.Forall2

namespace FlowScript.Channel

/-! ## Levels -/

/-- What stands before a slash and behind it has its own levels. -/
theorem levels_append_slash (s t : String) : levels (s ++ "/" ++ t) = levels s ++ levels t := by
  have hslash : "/" = String.singleton '/' := rfl
  rw [hslash]
  exact Text.splitAt_append_singleton '/' s t

theorem levels_of_slash_free {s : String} (h : '/' ∉ s.toList) : levels s = [s] :=
  Text.splitAt_eq_singleton h

theorem levels_injective {s t : String} (h : levels s = levels t) : s = t := by
  rw [← Text.intercalate_splitAt '/' s, ← Text.intercalate_splitAt '/' t]
  exact congrArg _ h

theorem not_mem_of_mem_splitOn {c : Char} {cs piece : List Char} (h : piece ∈ cs.splitOn c) : c ∉ piece := by
  induction cs generalizing piece with
  | nil =>
    rw [List.splitOn_nil, List.mem_singleton] at h
    simp [h]
  | cons d cs ih =>
    rw [List.splitOn_cons_eq_if_modifyHead] at h
    split at h
    · rcases List.mem_cons.1 h with rfl | h
      · exact List.not_mem_nil
      · exact ih h
    next hd =>
      cases hpieces : cs.splitOn c with
      | nil => exact absurd hpieces (List.splitOn_ne_nil c cs)
      | cons first rest =>
        rw [hpieces] at h ih
        rcases List.mem_cons.1 h with rfl | h
        · rw [List.mem_cons, not_or]
          exact ⟨fun hc => hd (by simp [hc]), ih List.mem_cons_self⟩
        · exact ih (List.mem_cons_of_mem _ h)

theorem slash_not_mem_of_mem_levels {s level : String} (h : level ∈ levels s) : '/' ∉ level.toList := by
  obtain ⟨piece, hpiece, rfl⟩ := List.mem_map.1 h
  rw [String.toList_ofList]
  exact not_mem_of_mem_splitOn hpiece

/-- There is one level more than there are slashes. -/
theorem length_levels (s : String) : (levels s).length = s.toList.count '/' + 1 := by
  rw [levels, Text.splitAt, List.length_map]
  induction s.toList with
  | nil => rfl
  | cons c cs ih =>
    rw [List.splitOn_cons_eq_if_modifyHead, List.count_cons]
    split
    · rw [List.length_cons, ih]
    · rw [List.length_modifyHead, ih, Nat.add_zero]

/-! ## Filters -/

/-- Levels of a filter, no number sign among them, are for as many levels of a
topic: a plus for any level, and any other text for itself. -/
structure Covers (filter topic : List String) : Prop where
  noSign : "#" ∉ filter
  each : List.Forall₂ (fun f t => f = "+" ∨ f = t) filter topic

theorem covers_nil_left {topic : List String} : Covers [] topic ↔ topic = [] := by
  constructor
  · rintro ⟨-, h⟩
    exact List.forall₂_nil_left_iff.1 h
  · rintro rfl
    exact ⟨List.not_mem_nil, .nil⟩

theorem covers_cons {f t : String} {filter topic : List String} :
    Covers (f :: filter) (t :: topic) ↔ f ≠ "#" ∧ (f = "+" ∨ f = t) ∧ Covers filter topic := by
  constructor
  · rintro ⟨hsign, h⟩
    obtain ⟨hf, h⟩ := List.forall₂_cons.1 h
    rw [List.mem_cons, not_or] at hsign
    exact ⟨Ne.symm hsign.1, hf, hsign.2, h⟩
  · rintro ⟨hsign, hf, hrest, h⟩
    exact ⟨by simp [Ne.symm hsign, hrest], .cons hf h⟩

theorem not_covers_cons_nil {f : String} {filter : List String} : ¬ Covers (f :: filter) [] := by
  rintro ⟨-, h⟩
  cases h

/-- Levels of a filter before a number sign at its end are for the first
levels of a topic. -/
def CoversFirst (filter topic : List String) : Prop :=
  ∃ before first rest, filter = before ++ ["#"] ∧ topic = first ++ rest ∧ Covers before first

theorem not_coversFirst_nil {topic : List String} : ¬ CoversFirst [] topic := by
  rintro ⟨before, first, rest, h, -⟩
  simp at h

theorem coversFirst_sign {filter topic : List String} : CoversFirst ("#" :: filter) topic ↔ filter = [] := by
  constructor
  · rintro ⟨before, first, rest, h, -, hcovers⟩
    cases before with
    | nil => simpa using h
    | cons f before =>
      obtain ⟨rfl, -⟩ := List.cons.inj h
      exact absurd List.mem_cons_self hcovers.noSign
  · rintro rfl
    exact ⟨[], [], topic, rfl, rfl, covers_nil_left.2 rfl⟩

theorem not_coversFirst_of_ne {f : String} {filter : List String} (hf : f ≠ "#") :
    ¬ CoversFirst (f :: filter) [] := by
  rintro ⟨before, first, rest, h, htopic, hcovers⟩
  obtain ⟨rfl, rfl⟩ := List.append_eq_nil_iff.1 htopic.symm
  cases before with
  | nil =>
    simp only [List.nil_append, List.cons.injEq] at h
    exact hf h.1
  | cons g before => exact not_covers_cons_nil hcovers

theorem coversFirst_cons {f t : String} {filter topic : List String} (hf : f ≠ "#") :
    CoversFirst (f :: filter) (t :: topic) ↔ (f = "+" ∨ f = t) ∧ CoversFirst filter topic := by
  constructor
  · rintro ⟨before, first, rest, h, htopic, hcovers⟩
    cases before with
    | nil =>
      simp only [List.nil_append, List.cons.injEq] at h
      exact absurd h.1 hf
    | cons g before =>
      cases first with
      | nil => exact absurd hcovers not_covers_cons_nil
      | cons u first =>
        rw [List.cons_append, List.cons.injEq] at h htopic
        obtain ⟨rfl, hfilter⟩ := h
        obtain ⟨rfl, htopic⟩ := htopic
        obtain ⟨-, heach, hcovers⟩ := covers_cons.1 hcovers
        exact ⟨heach, before, first, rest, hfilter, htopic, hcovers⟩
  · rintro ⟨heach, before, first, rest, rfl, rfl, hcovers⟩
    exact ⟨f :: before, t :: first, rest, rfl, rfl, covers_cons.2 ⟨hf, heach, hcovers⟩⟩

theorem levelsMatch_iff (filter topic : List String) :
    levelsMatch filter topic = true ↔ Covers filter topic ∨ CoversFirst filter topic := by
  induction filter generalizing topic with
  | nil => cases topic <;> simp [levelsMatch, covers_nil_left, not_coversFirst_nil]
  | cons f filter ih =>
    cases topic with
    | nil =>
      by_cases hf : f = "#"
      · subst hf
        simp [levelsMatch, not_covers_cons_nil, coversFirst_sign]
      · simp [levelsMatch, hf, not_covers_cons_nil, not_coversFirst_of_ne hf]
    | cons t topic =>
      by_cases hf : f = "#"
      · subst hf
        simp [levelsMatch, covers_cons, coversFirst_sign]
      · simp [levelsMatch, hf, covers_cons, coversFirst_cons hf, ih, ← and_or_left]

theorem filterMatches_iff {filter topic : String} : filterMatches filter topic = true ↔
    Covers (levels filter) (levels topic) ∨ CoversFirst (levels filter) (levels topic) :=
  levelsMatch_iff _ _

/-- Levels without signs are for themselves only. -/
theorem covers_plain {filter topic : List String} (hplus : "+" ∉ filter) (hsign : "#" ∉ filter) :
    Covers filter topic ↔ filter = topic := by
  constructor
  · rintro ⟨-, h⟩
    induction h with
    | nil => rfl
    | cons hf _ ih =>
      simp only [List.mem_cons, not_or] at hplus hsign
      rw [hf.resolve_left (Ne.symm hplus.1), ih hplus.2 hsign.2]
  · rintro rfl
    exact ⟨hsign, List.forall₂_same.2 fun _ _ => .inr rfl⟩

theorem CoversFirst.sign_mem {filter topic : List String} (h : CoversFirst filter topic) : "#" ∈ filter := by
  obtain ⟨before, -, -, rfl, -⟩ := h
  simp

/-- A filter is for a topic exactly if it has no number sign among its levels,
as many levels as the topic, and each of them is a plus or the level of the
topic; or its last level is its only number sign and those before it are so
for the first levels of the topic, of which there may be more. So a text with
a number sign for its further levels is for the text itself; there are as many
levels as there are places between slashes, empty ones included; a number sign
that is not the last level is for nothing; and without signs that are whole
levels a filter is for itself only. -/
theorem filterMatches_by_levels :
    (∀ filter topic, filterMatches filter topic = true ↔
      ("#" ∉ levels filter ∧ List.Forall₂ (fun f t => f = "+" ∨ f = t) (levels filter) (levels topic)) ∨
      ∃ before first rest, levels filter = before ++ ["#"] ∧ "#" ∉ before ∧
        levels topic = first ++ rest ∧ List.Forall₂ (fun f t => f = "+" ∨ f = t) before first) ∧
    (∀ topic, "#" ∉ levels topic → filterMatches (topic ++ "/#") topic = true) ∧
    (∀ s, (levels s).length = s.toList.count '/' + 1) ∧
    (∀ filter topic, "#" ∈ (levels filter).dropLast → filterMatches filter topic = false) ∧
    (∀ filter topic, "+" ∉ levels filter → "#" ∉ levels filter →
      (filterMatches filter topic = true ↔ filter = topic)) := by
  refine ⟨fun filter topic => ?_, fun topic h => ?_, length_levels, fun filter topic h => ?_,
    fun filter topic hplus hsign => ?_⟩
  · rw [filterMatches_iff]
    constructor
    · rintro (⟨hsign, heach⟩ | ⟨before, first, rest, hfilter, htopic, hsign, heach⟩)
      · exact .inl ⟨hsign, heach⟩
      · exact .inr ⟨before, first, rest, hfilter, hsign, htopic, heach⟩
    · rintro (⟨hsign, heach⟩ | ⟨before, first, rest, hfilter, hsign, htopic, heach⟩)
      · exact .inl ⟨hsign, heach⟩
      · exact .inr ⟨before, first, rest, hfilter, htopic, hsign, heach⟩
  · have hlevels : levels (topic ++ "/#") = levels topic ++ ["#"] := by
      have h := levels_append_slash topic "#"
      rwa [String.append_assoc, levels_of_slash_free (s := "#") (by decide)] at h
    exact filterMatches_iff.2 (.inr ⟨levels topic, levels topic, [], hlevels, (List.append_nil _).symm, h,
      List.forall₂_same.2 fun _ _ => .inr rfl⟩)
  · rw [Bool.eq_false_iff, ne_eq, filterMatches_iff]
    rintro (hcovers | ⟨before, first, rest, hfilter, htopic, hcovers⟩)
    · exact hcovers.noSign (List.dropLast_subset _ h)
    · rw [hfilter, List.dropLast_concat] at h
      exact hcovers.noSign h
  · rw [filterMatches_iff, covers_plain hplus hsign]
    exact ⟨fun h => levels_injective (h.resolve_right fun hfirst => hsign hfirst.sign_mem),
      fun h => .inl (congrArg levels h)⟩

/-- A plus is for an empty level too, and what follows a number sign that is
not the last level is never reached. -/
theorem filterMatches_by_levels_room :
    filterMatches "room/+/#" "room//lamp/on" = true ∧ filterMatches "room/#" "room" = true ∧
      filterMatches "room/#/on" "room/lamp/on" = false ∧ filterMatches "room+" "room/" = false := by
  obtain ⟨hiff, hself, -, hsign, hplain⟩ := filterMatches_by_levels
  refine ⟨(hiff _ _).2 (.inr ⟨["room", "+"], ["room", ""], ["lamp", "on"], ?_⟩), hself "room" ?_,
    hsign _ _ ?_, ?_⟩
  · decide
  · decide
  · decide
  · rw [Bool.eq_false_iff, ne_eq, hplain "room+" "room/" (by decide) (by decide)]
    decide

end FlowScript.Channel
