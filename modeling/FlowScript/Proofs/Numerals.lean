/-
The texts of floating-point numbers. The text of a finite number is a numeral
in parts (`Numeral`) that stands for the shortest digits of the number, so
that reading it gives back the number (`readReal_text`).
-/
import FlowScript.Decimal.Notation
import FlowScript.Proofs.Decimals
import FlowScript.Proofs.Expression
import FlowScript.Proofs.ShortestDigits

namespace FlowScript

namespace Decimal

open Binary64

/-! ## Digits -/

theorem areDigits_digits (n : Nat) : AreDigits (digits n) :=
  ⟨Nat.toDigits_ne_nil, fun _ => isDigit_of_mem_digits⟩

theorem ofDigits_digits (n : Nat) : ofDigits (digits n) = n :=
  Nat.ofDigitChars_toDigits (by decide) (by decide)

theorem ofDigits_append (a b : List Char) : ofDigits (a ++ b) = ofDigits a * 10 ^ b.length + ofDigits b := by
  rw [ofDigits, Nat.ofDigitChars_append, Nat.ofDigitChars_eq_ofDigitChars_zero, Nat.mul_comm]
  rfl

theorem ofDigits_zeros (k : Nat) : ofDigits (List.replicate k '0') = 0 := by
  rw [ofDigits, Nat.ofDigitChars_replicate_zero, Nat.mul_zero]

/-- No digits of a positive number begin with a zero. -/
theorem head_digits_ne_zero {n : Nat} (h : 0 < n) : (digits n).head? ≠ some '0' := by
  induction n using Nat.strongRecOn with
  | ind n ih =>
    rcases Nat.lt_or_ge n 10 with hlt | hge
    · have hone : ∀ n < 10, 0 < n → [Nat.digitChar n].head? ≠ some '0' := by decide
      rw [digits, Nat.toDigits_of_lt_base hlt]
      exact hone n hlt h
    · have hdiv := ih (n / 10) (by omega) (by omega)
      have hne : digits (n / 10) ≠ [] := (areDigits_digits _).1
      rw [digits, Nat.toDigits_of_base_le (by decide) hge]
      rwa [← digits, List.head?_append_of_ne_nil _ hne]

theorem eq_dropEnd_append (cs : List Char) :
    ∃ k, cs = Text.dropEnd (· == '0') cs ++ List.replicate k '0' := by
  have hzeros : ∀ c ∈ cs.reverse.takeWhile (· == '0'), c = '0' := by
    intro c hc
    simpa using List.all_eq_true.1 List.all_takeWhile c hc
  refine ⟨(cs.reverse.takeWhile (· == '0')).length, ?_⟩
  rw [Text.dropEnd, ← List.reverse_replicate, ← List.eq_replicate_of_mem hzeros, ← List.reverse_append,
    List.takeWhile_append_dropWhile, List.reverse_reverse]

/-! ## Numerals -/

/-- A number without its sign, in parts. -/
structure Numeral where
  whole : List Char
  fraction : List Char
  exponent : Option Int

namespace Numeral

def fractionText (fraction : List Char) : List Char :=
  if fraction = [] then [] else '.' :: fraction

def exponentText (plus : List Char) : Option Int → List Char
  | none => []
  | some e => 'e' :: ((if e < 0 then [] else plus) ++ integerText e)

def text (plus : List Char) (n : Numeral) : List Char :=
  n.whole ++ (fractionText n.fraction ++ exponentText plus n.exponent)

/-- All digits as one number. -/
def significand (n : Numeral) : Nat := ofDigits (n.whole ++ n.fraction)

/-- The exponent of the last digit. -/
def last (n : Numeral) : Int := n.exponent.getD 0 - n.fraction.length

def value (n : Numeral) : ℚ := n.significand * (10 : ℚ) ^ n.last

/-- How a number that need not be an integer is written: a zero at the front
stands alone, and a point or an exponent tells it from an integer. -/
structure Valid (n : Numeral) : Prop where
  whole : AreDigits n.whole
  alone : n.whole.head? = some '0' → n.whole = ['0']
  fraction : ∀ d ∈ n.fraction, d.isDigit = true
  marked : n.fraction ≠ [] ∨ n.exponent ≠ none

variable {m : Numeral}

/-- Zeros at the end of the digits raise the exponent. -/
theorem value_eq {s k : Nat} {e : Int} (hs : m.significand = s * 10 ^ k) (he : m.last = e - k) :
    m.value = s * (10 : ℚ) ^ e := by
  have hten : (10 : ℚ) ≠ 0 := by norm_num
  rw [value, hs, he, zpow_sub₀ hten, zpow_natCast]
  push_cast
  field_simp

end Numeral

theorem isDigit_of_mem_zeros {k : Nat} : ∀ d ∈ List.replicate k '0', d.isDigit = true := by
  intro d hd
  rw [List.eq_of_mem_replicate hd]
  decide

section Layouts

variable {ds : List Char} (hds : AreDigits ds) (hhead : ds.head? ≠ some '0') (plus : List Char)
include hds

/-- Digits behind the point. -/
theorem numeral_of_small {leading : Int} (h : leading < 0) :
    ∃ m : Numeral, m.Valid ∧ positional ds leading = m.text plus ∧
      m.value = ofDigits ds * (10 : ℚ) ^ (leading + 1 - ds.length) := by
  have hzero : AreDigits ['0'] := ⟨by simp, by simp⟩
  have hall : ∀ d ∈ List.replicate (-leading - 1).toNat '0' ++ ds, d.isDigit = true :=
    fun d hd => (List.mem_append.1 hd).elim (isDigit_of_mem_zeros d) (hds.2 d)
  have hne : List.replicate (-leading - 1).toNat '0' ++ ds ≠ [] := by simp [hds.1]
  refine ⟨⟨['0'], List.replicate (-leading - 1).toNat '0' ++ ds, none⟩,
    ⟨hzero, fun _ => rfl, hall, .inl hne⟩, ?_, ?_⟩
  · simp [positional, h, Numeral.text, Numeral.fractionText, Numeral.exponentText, hds.1]
  · refine Numeral.value_eq (k := 0) ?_ ?_
    · have hzeros : ['0'] ++ List.replicate (-leading - 1).toNat '0' =
          List.replicate ((-leading - 1).toNat + 1) '0' := rfl
      rw [Numeral.significand, ← List.append_assoc, hzeros, ofDigits_append, ofDigits_zeros]
      simp
    · simp only [Numeral.last, Option.getD_none, List.length_append, List.length_replicate]
      omega

include hhead

/-- Digits and zeros before the point. -/
theorem numeral_of_whole {leading : Int} (hleading : ¬ leading < 0) (h : ds.length ≤ leading.toNat + 1) :
    ∃ m : Numeral, m.Valid ∧ positional ds leading = m.text plus ∧
      m.value = ofDigits ds * (10 : ℚ) ^ (leading + 1 - ds.length) := by
  generalize hk : leading.toNat + 1 - ds.length = k
  have hwhole : AreDigits (ds ++ List.replicate k '0') :=
    ⟨by simp [hds.1], fun d hd => (List.mem_append.1 hd).elim (hds.2 d) (isDigit_of_mem_zeros d)⟩
  have hhead' : (ds ++ List.replicate k '0').head? ≠ some '0' := by
    rwa [List.head?_append_of_ne_nil _ hds.1]
  refine ⟨⟨ds ++ List.replicate k '0', ['0'], none⟩,
    ⟨hwhole, fun e => absurd e hhead', by simp, .inl (by simp)⟩, ?_, ?_⟩
  · simp [positional, hleading, h, hk, Numeral.text, Numeral.fractionText, Numeral.exponentText]
  · refine Numeral.value_eq (k := k + 1) ?_ ?_
    · have hzeros : List.replicate k '0' ++ ['0'] = List.replicate (k + 1) '0' := List.replicate_succ'.symm
      rw [Numeral.significand, List.append_assoc, hzeros, ofDigits_append, ofDigits_zeros]
      simp
    · simp only [Numeral.last, Option.getD_none, List.length_singleton]
      omega

/-- Digits on both sides of the point. -/
theorem numeral_of_split {n : Nat} (hn : 0 < n) (h : n < ds.length) (exponent : Option Int) :
    ∃ m : Numeral, m.Valid ∧ ds.take n ++ '.' :: (ds.drop n ++ Numeral.exponentText plus exponent) = m.text plus ∧
      m.value = ofDigits ds * (10 : ℚ) ^ (exponent.getD 0 + n - ds.length) := by
  have htake : ds.take n ≠ [] := by simp [hds.1, hn.ne']
  have hdrop : ds.drop n ≠ [] := by simpa using h
  have hhead' : (ds.take n).head? ≠ some '0' := by rwa [List.head?_take, if_neg hn.ne']
  refine ⟨⟨ds.take n, ds.drop n, exponent⟩, ⟨⟨htake, fun d hd => hds.2 d (List.mem_of_mem_take hd)⟩,
    fun e => absurd e hhead', fun d hd => hds.2 d (List.mem_of_mem_drop hd), .inl hdrop⟩, ?_, ?_⟩
  · simp [Numeral.text, Numeral.fractionText, Nat.not_le.2 h]
  · refine Numeral.value_eq (k := 0) ?_ ?_
    · simp [Numeral.significand]
    · simp only [Numeral.last, List.length_drop]
      omega

theorem numeral_of_positional (leading : Int) :
    ∃ m : Numeral, m.Valid ∧ positional ds leading = m.text plus ∧
      m.value = ofDigits ds * (10 : ℚ) ^ (leading + 1 - ds.length) := by
  rcases lt_or_ge leading 0 with h | h
  · exact numeral_of_small hds plus h
  rcases le_or_gt ds.length (leading.toNat + 1) with hlength | hlength
  · exact numeral_of_whole hds hhead plus (not_lt.2 h) hlength
  · obtain ⟨m, hm, htext, hvalue⟩ :=
      numeral_of_split hds hhead plus (Nat.succ_pos leading.toNat) hlength none
    refine ⟨m, hm, ?_, ?_⟩
    · rw [← htext]
      simp [positional, not_lt.2 h, Nat.not_le.2 hlength, Numeral.exponentText]
    · rw [hvalue]
      congr 2
      simp only [Option.getD_none]
      omega

theorem numeral_of_exponential (n : Notation) (leading : Int) :
    ∃ m : Numeral, m.Valid ∧ n.exponential ds leading = m.text n.plus ∧
      m.value = ofDigits ds * (10 : ℚ) ^ (leading + 1 - ds.length) := by
  rcases le_or_gt ds.length 1 with hlength | hlength
  · refine ⟨⟨ds, [], some leading⟩, ⟨hds, fun e => absurd e hhead, by simp, .inr (by simp)⟩, ?_, ?_⟩
    · simp [Notation.exponential, hlength, Numeral.text, Numeral.fractionText, Numeral.exponentText]
    · refine Numeral.value_eq (k := 0) ?_ ?_
      · simp [Numeral.significand]
      · have hpos := List.length_pos_iff.2 hds.1
        simp only [Numeral.last, Option.getD_some, List.length_nil]
        omega
  · obtain ⟨m, hm, htext, hvalue⟩ :=
      numeral_of_split hds hhead n.plus Nat.one_pos hlength (some leading)
    refine ⟨m, hm, ?_, hvalue⟩
    rw [← htext]
    simp [Notation.exponential, Nat.not_le.2 hlength, Numeral.exponentText]

end Layouts

/-- The text of a positive decimal is a numeral that stands for it. -/
theorem numeral_of_scaled (n : Notation) {decimal : Nat} (hpos : 0 < decimal) (e : Int) :
    ∃ m : Numeral, m.Valid ∧ n.scaled decimal e = m.text n.plus ∧ m.value = decimal * (10 : ℚ) ^ e := by
  obtain ⟨k, hk⟩ := eq_dropEnd_append (digits decimal)
  have hhead := head_digits_ne_zero hpos
  have hvalue := ofDigits_digits decimal
  have hall := areDigits_digits decimal
  unfold Notation.scaled
  dsimp only
  generalize Text.dropEnd (· == '0') (digits decimal) = ds at *
  rw [hk] at hhead hvalue hall ⊢
  have hne : ds ≠ [] := by
    rintro rfl
    cases k with
    | zero => exact hall.1 rfl
    | succ k => exact hhead rfl
  have hds : AreDigits ds := ⟨hne, fun d hd => hall.2 d (List.mem_append_left _ hd)⟩
  have hheadDs : ds.head? ≠ some '0' := by rwa [List.head?_append_of_ne_nil _ hne] at hhead
  -- The zeros at the end of the decimal raise the exponent of its first digits.
  have hten : (10 : ℚ) ≠ 0 := by norm_num
  have hshift : (ofDigits ds : ℚ) * (10 : ℚ) ^ (e + k) = decimal * (10 : ℚ) ^ e := by
    rw [← hvalue, ofDigits_append, ofDigits_zeros, List.length_replicate, zpow_add₀ hten, zpow_natCast]
    push_cast
    ring
  have hleading : e + (ds ++ List.replicate k '0').length - 1 + 1 - ds.length = e + k := by
    rw [List.length_append, List.length_replicate]
    omega
  rw [← hshift, ← hleading]
  split
  · exact numeral_of_positional hds hheadDs n.plus _
  · exact numeral_of_exponential hds hheadDs n _

/-- The text of a finite number is a numeral that rounds to it. -/
theorem numeral_of_text (n : Notation) (negative : Bool) {units : Nat} (hunits : IsUnits units) :
    ∃ m : Numeral, m.Valid ∧
      n.text (.finite negative units) = (if negative then ['-'] else []) ++ m.text n.plus ∧
      scaled negative m.significand m.last = .finite negative units := by
  rcases Nat.eq_zero_or_pos units with rfl | hpos
  · have hzero : AreDigits ['0'] := ⟨by simp, by simp⟩
    exact ⟨⟨['0'], ['0'], none⟩, ⟨hzero, fun _ => rfl, by simp, .inl (by simp)⟩, rfl, rfl⟩
  · obtain ⟨hdecimal, hcontains⟩ := contains_shortest hpos hunits.2 n.tie
    obtain ⟨m, hm, htext, hvalue⟩ := numeral_of_scaled n hdecimal (shortest n.tie units).2
    refine ⟨m, hm, ?_, scaled_of_contains negative hunits hpos ?_⟩
    · rw [Notation.text, if_neg hpos.ne', Notation.magnitude, htext]
    · rwa [← hvalue] at hcontains

/-! ## Reading numerals -/

/-- A minus where there is one, and nothing else. -/
theorem isSign_ite (negative : Bool) : IsSign (if negative then ['-'] else []) negative := by
  cases negative with
  | true => exact .minus
  | false => exact .absent

theorem takeSign_digits (n : Nat) : takeSign (digits n) = (false, digits n) := by
  obtain ⟨d, rest, hd, hdigit, -⟩ := (areDigits_digits n).cons_head
  rw [hd]
  exact takeSign_append .absent (noSign_cons (.inl hdigit) rest)

theorem takeSign_integerText (n : Int) : takeSign (integerText n) = (decide (n < 0), digits n.natAbs) := by
  unfold integerText
  by_cases h : n < 0
  · simp [h, takeSign]
  · simp [h, takeSign_digits]

section Text

variable {plus : List Char} (hplus : IsPlus plus)
include hplus

theorem isExponent_exponentText (e : Option Int) : IsExponent (Numeral.exponentText plus e) (e.getD 0) := by
  cases e with
  | none => exact .absent
  | some e =>
    have hsplit : ∃ sign, IsSign sign (decide (e < 0)) ∧
        (if e < 0 then [] else plus) ++ integerText e = sign ++ digits e.natAbs := by
      unfold integerText
      by_cases he : e < 0
      · refine ⟨['-'], ?_, by simp [he]⟩
        rw [decide_eq_true he]
        exact .minus
      · rw [decide_eq_false he, if_neg he, if_neg he]
        rcases hplus with rfl | rfl
        · exact ⟨[], .absent, rfl⟩
        · exact ⟨['+'], .plus, rfl⟩
    have hvalue : (if decide (e < 0) = true then -(ofDigits (digits e.natAbs) : Int)
        else ofDigits (digits e.natAbs)) = e := by
      rw [ofDigits_digits]
      split
      next he =>
        have hneg := of_decide_eq_true he
        omega
      next he =>
        have hpos := of_decide_eq_false (Bool.eq_false_iff.2 he)
        omega
    obtain ⟨sign, hsign, htext⟩ := hsplit
    have hexponent := IsExponent.written (.inl rfl) hsign (areDigits_digits e.natAbs)
    rw [hvalue] at hexponent
    rw [Numeral.exponentText, htext]
    exact hexponent

theorem Numeral.Valid.isUnsigned {m : Numeral} (hm : m.Valid) : IsUnsigned (m.text plus) m.significand m.last := by
  have hpoint : IsFraction (fractionText m.fraction) m.fraction := by
    unfold fractionText
    split
    next h => exact h ▸ .absent
    next => exact .written hm.fraction
  exact .mk hm.whole.2 hpoint (.inl hm.whole.1) (isExponent_exponentText hplus m.exponent)

end Text

theorem Numeral.Valid.text_cons {m : Numeral} (hm : m.Valid) (plus : List Char) :
    ∃ d cs, m.text plus = d :: cs ∧ d.isDigit = true := by
  obtain ⟨d, rest, hd, hdigit, -⟩ := hm.whole.cons_head
  exact ⟨d, rest ++ (Numeral.fractionText m.fraction ++ Numeral.exponentText plus m.exponent),
    by rw [Numeral.text, hd, List.cons_append], hdigit⟩

/-- **The text of a number is read as the number**, in every notation whose
exponents are without a sign or have a plus sign. -/
theorem readReal_text (n : Notation) (hplus : IsPlus n.plus) (negative : Bool) {units : Nat}
    (hunits : IsUnits units) :
    readReal (n.text (.finite negative units)) = some (.finite negative units) := by
  obtain ⟨m, hm, htext, hscaled⟩ := numeral_of_text n negative hunits
  rw [htext]
  exact readReal_eq_finite_iff.2 ⟨_, _, .mk (isSign_ite negative) (hm.isUnsigned hplus), hscaled⟩

end Decimal

end FlowScript
