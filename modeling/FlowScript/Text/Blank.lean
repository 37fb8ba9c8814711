/-
Characters that count as blank or as control characters, and the text
operations that go by them. `isBlank` is Unicode's property White_Space;
trimming removes blanks at both ends, and a keyword is a text trimmed and
with the capitals of ASCII as small letters.
-/
namespace FlowScript

namespace Text

/-- Unicode White_Space: twenty-five characters in ten ranges. -/
def blankRanges : List (Nat × Nat) :=
  [(0x9, 0xd), (0x20, 0x20), (0x85, 0x85), (0xa0, 0xa0), (0x1680, 0x1680), (0x2000, 0x200a),
    (0x2028, 0x2029), (0x202f, 0x202f), (0x205f, 0x205f), (0x3000, 0x3000)]

def isBlank (c : Char) : Bool :=
  blankRanges.any fun r => decide (r.1 ≤ c.toNat ∧ c.toNat ≤ r.2)

/-- Whether a character is a control character: U+0000 to U+001F and U+007F to U+009F. -/
def isControl (c : Char) : Bool :=
  decide (c.toNat < 0x20 ∨ (0x7f ≤ c.toNat ∧ c.toNat ≤ 0x9f))

/-- The list without what satisfies `p` at its end. -/
def dropEnd (p : Char → Bool) (cs : List Char) : List Char := (cs.reverse.dropWhile p).reverse

/-- The list without what satisfies `p` at either end. -/
def strip (p : Char → Bool) (cs : List Char) : List Char := dropEnd p (cs.dropWhile p)

def trim (s : String) : String := String.ofList (strip isBlank s.toList)

/-- The text with the capitals A to Z as small letters. -/
def fold (s : String) : String := String.ofList (s.toList.map Char.toLower)

/-- The word a text is looked up by: trimmed, and without capitals. -/
def keyword (s : String) : String := fold (trim s)

def isBlankText (s : String) : Bool := s.toList.all isBlank

@[simp] theorem toList_trim (s : String) : (trim s).toList = strip isBlank s.toList := by
  simp [trim]

@[simp] theorem toList_fold (s : String) : (fold s).toList = s.toList.map Char.toLower := by
  simp [fold]

end Text

end FlowScript
