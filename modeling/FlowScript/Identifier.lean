/-
Names that both target languages accept, and free text made harmless for a
comment. `sanitize` keeps the letters, digits and underscores of a label and
puts `component_` before what would start with a digit or be empty;
`isIdentifier_sanitize` and `sanitize_eq_self_iff` say that its results are
identifiers and that it leaves exactly those alone.
-/
import FlowScript.Text.Blank

namespace FlowScript

namespace Identifier

/-- Whether a character may start an identifier. -/
def isStart (c : Char) : Bool := c.isAlpha || c == '_'

/-- Whether a character may stand in an identifier. -/
def isPart (c : Char) : Bool := c.isAlphanum || c == '_'

/-- What is put before a label that would start with a digit or be empty. -/
def lead : String := "component_"

/-- An ASCII letter or underscore, followed by letters, digits and underscores. -/
def isIdentifier (s : String) : Bool :=
  match s.toList with
  | [] => false
  | c :: cs => isStart c && cs.all isPart

/-- The characters of the identifier that a label stands for. -/
def sanitizeChars (cs : List Char) : List Char :=
  match cs.filter isPart with
  | [] => lead.toList
  | c :: kept => if c.isDigit then lead.toList ++ c :: kept else c :: kept

def sanitize (label : String) : String := String.ofList (sanitizeChars label.toList)

/-- A control character or a blank other than the space as a space. -/
def safeChar (c : Char) : Char :=
  if Text.isControl c || (Text.isBlank c && c != ' ') then ' ' else c

/-- A text that stays on the line of the comment it is written in. -/
def commentSafe (s : String) : String := String.ofList (s.toList.map safeChar)

theorem isPart_of_isStart {c : Char} (h : isStart c = true) : isPart c = true := by
  simp only [isStart, isPart, Char.isAlphanum, Bool.or_eq_true] at *
  exact h.imp .inl id

/-- What may stand in an identifier starts one unless it is a digit. -/
theorem isStart_of_isPart {c : Char} (h : isPart c = true) (hd : c.isDigit = false) :
    isStart c = true := by
  simpa [isStart, isPart, Char.isAlphanum, hd] using h

theorem isIdentifier_sanitize (s : String) : isIdentifier (sanitize s) = true := by
  have hall : ∀ c ∈ s.toList.filter isPart, isPart c = true := fun c hc => (List.mem_filter.1 hc).2
  simp only [isIdentifier, sanitize, String.toList_ofList, sanitizeChars]
  cases hf : s.toList.filter isPart with
  | nil => decide
  | cons c kept =>
    rw [hf] at hall
    by_cases hd : c.isDigit
    · have hrest : (c :: kept).all isPart = true := List.all_eq_true.2 hall
      simp only [hd, if_true]
      show (isStart 'c' && ("omponent_".toList ++ c :: kept).all isPart) = true
      rw [List.all_append, hrest]
      decide
    · simp only [hd, Bool.false_eq_true, if_false, Bool.and_eq_true, List.all_eq_true]
      exact ⟨isStart_of_isPart (hall c (by simp)) (by simpa using hd),
        fun x hx => hall x (List.mem_cons_of_mem _ hx)⟩

theorem not_isDigit_of_isStart {c : Char} (h : isStart c = true) : c.isDigit = false := by
  change ((decide (c.val ≥ 65 ∧ c.val ≤ 90) || (c.val ≥ 97 && c.val ≤ 122)) || c == '_') = true at h
  simp only [Bool.or_eq_true, Bool.and_eq_true, decide_eq_true_eq, beq_iff_eq, UInt32.le_iff_toNat_le,
    ge_iff_le] at h
  change ((65 ≤ c.toNat ∧ c.toNat ≤ 90) ∨ (97 ≤ c.toNat ∧ c.toNat ≤ 122)) ∨ c = '_' at h
  have hd : c.isDigit = true → c.toNat ≤ 57 := by
    simp only [Char.isDigit, Bool.and_eq_true, decide_eq_true_eq, UInt32.le_iff_toNat_le, ge_iff_le]
    exact fun h => h.2
  rcases h with (h | h) | rfl
  · exact Bool.eq_false_iff.2 fun hc => by have := hd hc; omega
  · exact Bool.eq_false_iff.2 fun hc => by have := hd hc; omega
  · decide

theorem sanitize_of_isIdentifier {s : String} (h : isIdentifier s = true) : sanitize s = s := by
  apply String.toList_inj.1
  rw [sanitize, String.toList_ofList]
  rw [isIdentifier] at h
  cases hs : s.toList with
  | nil => simp [hs] at h
  | cons c cs =>
    simp only [hs, Bool.and_eq_true, List.all_eq_true] at h
    have hf : (c :: cs).filter isPart = c :: cs :=
      List.filter_eq_self.2 fun x hx => by
        rcases List.mem_cons.1 hx with rfl | hx
        · exact isPart_of_isStart h.1
        · exact h.2 x hx
    simp [sanitizeChars, hf, not_isDigit_of_isStart h.1]

/-- Sanitizing leaves identifiers alone, and nothing else. -/
theorem sanitize_eq_self_iff (s : String) : sanitize s = s ↔ isIdentifier s = true :=
  ⟨fun h => h ▸ isIdentifier_sanitize s, sanitize_of_isIdentifier⟩

end Identifier

end FlowScript
