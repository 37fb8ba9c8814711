/-
Which texts are numbers. A decimal is a sign, digits with an optional point,
and an optional exponent (`IsDecimal`). A text is read as a finite number just
when it is a decimal that is rounded to it (`readReal_eq_finite_iff`), and as a
natural number when it is digits after an optional plus sign
(`readNatural_eq_some_iff`).
-/
import FlowScript.Decimal.Reading
import Mathlib.Logic.Basic
import Mathlib.Tactic.SplitIfs

namespace FlowScript

namespace Decimal

/-! ## The form of decimals -/

/-- Digits, at least one. -/
def AreDigits (ds : List Char) : Prop := ds ≠ [] ∧ ∀ d ∈ ds, d.isDigit = true

/-- A sign that may be left out, and whether it is a minus. -/
inductive IsSign : List Char → Bool → Prop
  | absent : IsSign [] false
  | plus : IsSign ['+'] false
  | minus : IsSign ['-'] true

/-- The point with the digits after it; with neither there are none. -/
inductive IsFraction : List Char → List Char → Prop
  | absent : IsFraction [] []
  | written {ds} (hds : ∀ d ∈ ds, d.isDigit = true) : IsFraction ('.' :: ds) ds

/-- The exponent, which is zero if it is left out. -/
inductive IsExponent : List Char → Int → Prop
  | absent : IsExponent [] 0
  | written {c sign negative ds} (hc : c = 'e' ∨ c = 'E') (hsign : IsSign sign negative) (hds : AreDigits ds) :
      IsExponent (c :: (sign ++ ds)) (if negative then -(ofDigits ds : Int) else ofDigits ds)

/-- A decimal without its sign: all its digits as one number, and the exponent
of the last. There is a digit on one side of the point at least. -/
inductive IsUnsigned : List Char → Nat → Int → Prop
  | mk {whole point fraction exponent e} (hwhole : ∀ d ∈ whole, d.isDigit = true)
      (hpoint : IsFraction point fraction) (hsome : whole ≠ [] ∨ fraction ≠ [])
      (hexponent : IsExponent exponent e) :
      IsUnsigned (whole ++ (point ++ exponent)) (ofDigits (whole ++ fraction)) (e - fraction.length)

/-- A decimal: its sign, its digits as one number, and the exponent of the last. -/
inductive IsDecimal : List Char → Bool → Nat → Int → Prop
  | mk {sign body negative significand e} (hsign : IsSign sign negative)
      (hbody : IsUnsigned body significand e) : IsDecimal (sign ++ body) negative significand e

/-! ## Digits and signs -/

theorem AreDigits.cons_head {ds : List Char} (h : AreDigits ds) :
    ∃ d rest, ds = d :: rest ∧ d.isDigit = true ∧ ∀ c ∈ rest, c.isDigit = true := by
  obtain ⟨hne, hall⟩ := h
  cases ds with
  | nil => exact absurd rfl hne
  | cons d rest => exact ⟨d, rest, rfl, (List.forall_mem_cons.1 hall).1, (List.forall_mem_cons.1 hall).2⟩

/-- What does not begin with a digit. -/
def NoDigit (cs : List Char) : Prop := ∀ c ∈ cs.head?, c.isDigit = false

theorem takeWhile_digits {ds rest : List Char} (hds : ∀ d ∈ ds, d.isDigit = true) (hrest : NoDigit rest) :
    (ds ++ rest).takeWhile Char.isDigit = ds ∧ (ds ++ rest).dropWhile Char.isDigit = rest := by
  have hstop : rest.takeWhile Char.isDigit = [] ∧ rest.dropWhile Char.isDigit = rest := by
    cases rest with
    | nil => exact ⟨rfl, rfl⟩
    | cons c cs =>
      have hc : c.isDigit = false := hrest c rfl
      exact ⟨List.takeWhile_cons_of_neg (by simp [hc]), List.dropWhile_cons_of_neg (by simp [hc])⟩
  rw [List.takeWhile_append_of_pos hds, List.dropWhile_append_of_pos hds, hstop.1, hstop.2, List.append_nil]
  exact ⟨rfl, rfl⟩

theorem ne_of_isDigit {c d : Char} (hc : c.isDigit = true) (hd : d.isDigit = false) : c ≠ d := by
  rintro rfl
  rw [hc] at hd
  cases hd

theorem toLower_of_isDigit {d : Char} (h : d.isDigit = true) : d.toLower = d := by
  have hbounds : (decide (d.val ≥ '0'.val) && decide (d.val ≤ '9'.val)) = true := h
  have hmax : d.val ≤ '9'.val := of_decide_eq_true (Bool.and_eq_true_iff.1 hbounds).2
  exact dif_neg fun hcapital => absurd (UInt32.le_trans hcapital.1 hmax) (by decide)

/-- What does not begin with a sign. -/
def NoSign (cs : List Char) : Prop := ∀ c ∈ cs.head?, c ≠ '-' ∧ c ≠ '+'

theorem takeSign_append {sign body : List Char} {negative : Bool} (h : IsSign sign negative) (hbody : NoSign body) :
    takeSign (sign ++ body) = (negative, body) := by
  cases h with
  | plus => rfl
  | minus => rfl
  | absent =>
    rw [List.nil_append]
    unfold takeSign
    split
    next => exact absurd rfl (hbody _ rfl).1
    next => exact absurd rfl (hbody _ rfl).2
    next => rfl

theorem noSign_cons {c : Char} (hc : c.isDigit = true ∨ c = '.') (cs : List Char) : NoSign (c :: cs) := by
  rintro c' ⟨⟩
  rcases hc with hc | rfl
  · exact ⟨ne_of_isDigit hc (by decide), ne_of_isDigit hc (by decide)⟩
  · decide

theorem takeSign_split (cs : List Char) : ∃ sign, IsSign sign (takeSign cs).1 ∧ cs = sign ++ (takeSign cs).2 := by
  unfold takeSign
  split
  next => exact ⟨_, .minus, rfl⟩
  next => exact ⟨_, .plus, rfl⟩
  next => exact ⟨_, .absent, rfl⟩

theorem AreDigits.noSign {ds : List Char} (h : AreDigits ds) : NoSign ds := by
  obtain ⟨d, rest, rfl, hdigit, -⟩ := h.cons_head
  exact noSign_cons (.inl hdigit) rest

theorem areDigits_iff_all {ds : List Char} : ds ≠ [] ∧ ds.all Char.isDigit = true ↔ AreDigits ds := by
  rw [AreDigits, List.all_eq_true]

/-! ## Reading -/

theorem readExponent_eq_some_iff {cs : List Char} {e : Int} : readExponent cs = some e ↔ IsExponent cs e := by
  constructor
  · intro h
    cases cs with
    | nil =>
      cases h
      exact .absent
    | cons c cs =>
      obtain ⟨sign, hsign, hcs⟩ := takeSign_split cs
      unfold readExponent at h
      dsimp only at h
      generalize takeSign cs = taken at *
      obtain ⟨negative, ds⟩ := taken
      split at h
      next hc =>
        split at h
        next hds =>
          cases h
          rw [hcs]
          exact .written hc hsign (areDigits_iff_all.1 hds)
        next => cases h
      next => cases h
  · rintro (_ | ⟨hc, hsign, hds⟩)
    · rfl
    · simp only [readExponent, takeSign_append hsign hds.noSign, if_pos hc, if_pos (areDigits_iff_all.2 hds)]

theorem IsExponent.noDigit {cs : List Char} {e : Int} (h : IsExponent cs e) : NoDigit cs := by
  cases h with
  | absent => exact fun c hc => by cases hc
  | written hc =>
    rintro c ⟨⟩
    rcases hc with rfl | rfl <;> decide

/-- The digits after the point, and what follows them. -/
def splitFraction : List Char → List Char × List Char
  | '.' :: rest => (rest.takeWhile Char.isDigit, rest.dropWhile Char.isDigit)
  | rest => ([], rest)

theorem readUnsigned_eq (negative : Bool) (cs : List Char) :
    readUnsigned negative cs =
      if cs.takeWhile Char.isDigit = [] ∧ (splitFraction (cs.dropWhile Char.isDigit)).1 = [] then none
      else (readExponent (splitFraction (cs.dropWhile Char.isDigit)).2).map fun e =>
        scaled negative (ofDigits (cs.takeWhile Char.isDigit ++ (splitFraction (cs.dropWhile Char.isDigit)).1))
          (e - (splitFraction (cs.dropWhile Char.isDigit)).1.length) := rfl

theorem splitFraction_split (cs : List Char) :
    ∃ point, IsFraction point (splitFraction cs).1 ∧ cs = point ++ (splitFraction cs).2 := by
  unfold splitFraction
  split
  next rest =>
    refine ⟨_, .written (List.all_eq_true.1 List.all_takeWhile), ?_⟩
    rw [List.cons_append, List.takeWhile_append_dropWhile]
  next => exact ⟨[], .absent, rfl⟩

section Fraction

variable {point fraction exponent : List Char} {e : Int} (hpoint : IsFraction point fraction)
  (hexponent : IsExponent exponent e)
include hpoint hexponent

theorem splitFraction_append : splitFraction (point ++ exponent) = (fraction, exponent) := by
  cases hpoint with
  | absent =>
    cases hexponent with
    | absent => rfl
    | written hc => rcases hc with rfl | rfl <;> rfl
  | written hds =>
    have htake := takeWhile_digits hds hexponent.noDigit
    rw [List.cons_append, splitFraction, htake.1, htake.2]

theorem noDigit_fraction : NoDigit (point ++ exponent) := by
  cases hpoint with
  | absent => exact hexponent.noDigit
  | written =>
    rintro c ⟨⟩
    decide

end Fraction

theorem readUnsigned_eq_some_iff {negative : Bool} {cs : List Char} {x : Binary64} :
    readUnsigned negative cs = some x ↔
      ∃ significand e, IsUnsigned cs significand e ∧ x = scaled negative significand e := by
  rw [readUnsigned_eq]
  constructor
  · intro h
    have hwhole : ∀ d ∈ cs.takeWhile Char.isDigit, d.isDigit = true := List.all_eq_true.1 List.all_takeWhile
    have hcs : cs.takeWhile Char.isDigit ++ cs.dropWhile Char.isDigit = cs := List.takeWhile_append_dropWhile
    generalize cs.takeWhile Char.isDigit = whole at *
    generalize cs.dropWhile Char.isDigit = rest at *
    obtain ⟨point, hpoint, hrest⟩ := splitFraction_split rest
    generalize splitFraction rest = parts at *
    split at h
    next => cases h
    next hsome =>
      obtain ⟨e, hexponent, rfl⟩ := Option.map_eq_some_iff.1 h
      rw [← hcs, hrest]
      exact ⟨_, _, .mk hwhole hpoint (not_and_or.1 hsome) (readExponent_eq_some_iff.1 hexponent), rfl⟩
  · rintro ⟨_, _, ⟨hwhole, hpoint, hsome, hexponent⟩, rfl⟩
    obtain ⟨htake, hdrop⟩ := takeWhile_digits hwhole (noDigit_fraction hpoint hexponent)
    rw [htake, hdrop, splitFraction_append hpoint hexponent, if_neg (not_and_or.2 hsome),
      readExponent_eq_some_iff.2 hexponent, Option.map_some]

/-- Decimals begin with a digit or the point, and so with no sign and no letter. -/
theorem IsUnsigned.head {cs : List Char} {significand : Nat} {e : Int} (h : IsUnsigned cs significand e) :
    ∃ c rest, cs = c :: rest ∧ (c.isDigit = true ∨ c = '.') := by
  cases h with
  | @mk whole point fraction exponent e hwhole hpoint hsome hexponent =>
    cases whole with
    | cons d whole => exact ⟨d, _, rfl, .inl (hwhole d List.mem_cons_self)⟩
    | nil =>
      cases hpoint with
      | absent => exact absurd rfl (hsome.resolve_left fun h => h rfl)
      | written => exact ⟨'.', _, rfl, .inr rfl⟩

/-- What begins with a digit or the point is none of the words that are read, with any sign. -/
theorem readReal_append {sign cs : List Char} {negative : Bool} {c : Char} (hsign : IsSign sign negative)
    (hc : c.isDigit = true ∨ c = '.') : readReal (sign ++ c :: cs) = readUnsigned negative (c :: cs) := by
  have hfirst : c.toLower = c ∧ c ≠ 'i' ∧ c ≠ 'n' := by
    rcases hc with hc | rfl
    · exact ⟨toLower_of_isDigit hc, ne_of_isDigit hc (by decide), ne_of_isDigit hc (by decide)⟩
    · decide
  have hword : ∀ {d : Char} {word : List Char}, c ≠ d → (c :: cs).map Char.toLower ≠ d :: word := by
    rintro d word hd h
    rw [List.map_cons, hfirst.1, List.cons.injEq] at h
    exact hd h.1
  have hinfinity : ¬ ((c :: cs).map Char.toLower = "inf".toList ∨
      (c :: cs).map Char.toLower = "infinity".toList) :=
    fun h => h.elim (hword hfirst.2.1) (hword hfirst.2.1)
  have hnan : ¬ (c :: cs).map Char.toLower = "nan".toList := hword hfirst.2.2
  rw [readReal, takeSign_append hsign (noSign_cons hc cs)]
  dsimp only
  rw [if_neg hinfinity, if_neg hnan]

/-- What is rounded keeps its sign. -/
theorem scaled_sign (negative : Bool) (significand : Nat) (e : Int) :
    scaled negative significand e = .infinite negative ∨
      ∃ units, scaled negative significand e = .finite negative units := by
  have hround : ∀ n d, Binary64.round negative n d = .infinite negative ∨
      ∃ units, Binary64.round negative n d = .finite negative units := by
    intro n d
    unfold Binary64.round
    dsimp only
    split
    · exact .inl rfl
    · exact .inr ⟨_, rfl⟩
  unfold scaled
  split_ifs
  · exact .inr ⟨0, rfl⟩
  · exact .inl rfl
  · exact .inr ⟨0, rfl⟩
  · exact hround _ _
  · exact hround _ _

/-- **A text is read as a finite number if it is a decimal that is rounded to it.** -/
theorem readReal_eq_finite_iff {cs : List Char} {negative : Bool} {units : Nat} :
    readReal cs = some (.finite negative units) ↔
      ∃ significand e, IsDecimal cs negative significand e ∧
        scaled negative significand e = .finite negative units := by
  constructor
  · intro h
    obtain ⟨sign, hsign, hcs⟩ := takeSign_split cs
    unfold readReal at h
    dsimp only at h
    generalize takeSign cs = taken at *
    obtain ⟨negative', body⟩ := taken
    split_ifs at h
    · cases h
    · cases h
    · obtain ⟨significand, e, hbody, hscaled⟩ := readUnsigned_eq_some_iff.1 h
      obtain hround | ⟨units', hround⟩ := scaled_sign negative' significand e
      · rw [hround] at hscaled
        cases hscaled
      · rw [hround] at hscaled
        cases hscaled
        rw [hcs]
        exact ⟨significand, e, .mk hsign hbody, hround⟩
  · rintro ⟨_, _, ⟨hsign, hbody⟩, hscaled⟩
    obtain ⟨c, rest, rfl, hc⟩ := hbody.head
    rw [readReal_append hsign hc]
    exact readUnsigned_eq_some_iff.2 ⟨_, _, hbody, hscaled.symm⟩

/-- A plus sign, or nothing. -/
def IsPlus (plus : List Char) : Prop := plus = [] ∨ plus = ['+']

/-- A plus sign that may be left out, and digits. -/
inductive IsNatural : List Char → Nat → Prop
  | mk {plus ds} (hplus : IsPlus plus) (hds : AreDigits ds) : IsNatural (plus ++ ds) (ofDigits ds)

/-- A text without the plus sign at its front. -/
def dropPlus : List Char → List Char
  | '+' :: cs => cs
  | cs => cs

theorem readNatural_eq (bound : Nat) (cs : List Char) :
    readNatural bound cs =
      if dropPlus cs ≠ [] ∧ (dropPlus cs).all Char.isDigit ∧ ofDigits (dropPlus cs) < bound then
        some (ofDigits (dropPlus cs))
      else none := rfl

theorem dropPlus_append {plus ds : List Char} (hplus : IsPlus plus) (hds : AreDigits ds) :
    dropPlus (plus ++ ds) = ds := by
  rcases hplus with rfl | rfl
  · obtain ⟨d, rest, rfl, hd, -⟩ := hds.cons_head
    rw [List.nil_append]
    unfold dropPlus
    split
    next h =>
      cases h
      cases hd
    next => rfl
  · rfl

theorem dropPlus_split (cs : List Char) : ∃ plus, IsPlus plus ∧ cs = plus ++ dropPlus cs := by
  unfold dropPlus
  split
  next => exact ⟨_, .inr rfl, rfl⟩
  next => exact ⟨_, .inl rfl, rfl⟩

/-- **A text is read as a natural number if it is one, below the bound.** -/
theorem readNatural_eq_some_iff {bound n : Nat} {cs : List Char} :
    readNatural bound cs = some n ↔ IsNatural cs n ∧ n < bound := by
  rw [readNatural_eq]
  constructor
  · intro h
    obtain ⟨plus, hplus, hcs⟩ := dropPlus_split cs
    generalize dropPlus cs = ds at *
    split at h
    next hds =>
      cases h
      rw [hcs]
      exact ⟨.mk hplus (areDigits_iff_all.1 ⟨hds.1, hds.2.1⟩), hds.2.2⟩
    next => cases h
  · rintro ⟨⟨hplus, hds⟩, hbound⟩
    have hall := areDigits_iff_all.2 hds
    rw [dropPlus_append hplus hds, if_pos ⟨hall.1, hall.2, hbound⟩]

end Decimal

end FlowScript
