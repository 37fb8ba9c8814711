/-
The tokens of numbers. An integer and a number of 64 bits that is finite are
each written as one token (`isToken_token`), and a token stands for one
number only (`token_injective`).
-/
import FlowScript.Proofs.Numerals
import FlowScript.Proofs.ReadBack

namespace FlowScript

namespace Json

open Decimal Binary64

/-! ## Tokens -/

theorem continues_eq_false_iff {c : Char} :
    continues c = false ↔ c.isDigit = false ∧ c ≠ '.' ∧ c ≠ 'e' ∧ c ≠ 'E' := by
  simp [continues]

theorem Ends.noDigit {rest : List Char} (h : Ends rest) : NoDigit rest :=
  fun c hc => (continues_eq_false_iff.1 (h c hc)).1

theorem readDigits_append {ds rest : List Char} (hds : AreDigits ds) (hrest : NoDigit rest) :
    readDigits (ds ++ rest) = some (ds, rest) := by
  obtain ⟨htake, hdrop⟩ := takeWhile_digits hds.2 hrest
  unfold readDigits
  rw [htake, hdrop]
  cases ds with
  | nil => exact absurd rfl hds.1
  | cons d ds => rfl

theorem readWhole_append {ds rest : List Char} (hds : AreDigits ds) (halone : ds.head? = some '0' → ds = ['0'])
    (hrest : NoDigit rest) : readWhole (ds ++ rest) = some (ds, rest) := by
  by_cases hzero : ds.head? = some '0'
  · rw [halone hzero]
    rfl
  · have hread := readDigits_append hds hrest
    obtain ⟨d, ds', rfl, -, -⟩ := hds.cons_head
    unfold readWhole
    split
    next h =>
      cases h
      exact absurd rfl hzero
    next => exact hread

theorem readExponent_append (e : Option Int) {rest : List Char} (hrest : Ends rest) :
    readExponent (Numeral.exponentText ['+'] e ++ rest) = some (Numeral.exponentText ['+'] e, rest) := by
  cases e with
  | none =>
    cases rest with
    | nil => rfl
    | cons c cs =>
      obtain ⟨-, -, h1, h2⟩ := continues_eq_false_iff.1 (hrest c rfl)
      simp [Numeral.exponentText, readExponent, h1, h2]
  | some e =>
    have hdigits := readDigits_append (areDigits_digits e.natAbs) hrest.noDigit
    by_cases he : e < 0
    · simp [Numeral.exponentText, integerText, readExponent, he, hdigits]
    · simp [Numeral.exponentText, integerText, readExponent, he, hdigits]

/-- What may follow a fraction: an exponent, or the end of the number. -/
theorem noDigit_exponent (e : Option Int) {rest : List Char} (hrest : Ends rest) :
    NoDigit (Numeral.exponentText ['+'] e ++ rest) := by
  cases e with
  | none => exact hrest.noDigit
  | some e => simp [NoDigit, Numeral.exponentText]

theorem readFraction_append {fraction rest : List Char} (hall : ∀ d ∈ fraction, d.isDigit = true)
    (hrest : NoDigit rest) (hpoint : rest.head? ≠ some '.') :
    readFraction (Numeral.fractionText fraction ++ rest) = some (Numeral.fractionText fraction, rest) := by
  by_cases hnone : fraction = []
  · rw [Numeral.fractionText, if_pos hnone, List.nil_append]
    unfold readFraction
    split
    next => exact absurd rfl hpoint
    next => rfl
  · have hread := readDigits_append ⟨hnone, hall⟩ hrest
    simp [Numeral.fractionText, hnone, readFraction, hread]

theorem readMagnitude_text {m : Numeral} (hm : m.Valid) {rest : List Char} (hrest : Ends rest) :
    readMagnitude (m.text ['+'] ++ rest) = some (m.text ['+'], rest) := by
  have hnoDigit := noDigit_exponent m.exponent hrest
  have hexponent := readExponent_append m.exponent hrest
  have hpoint : (Numeral.exponentText ['+'] m.exponent ++ rest).head? ≠ some '.' := by
    cases m.exponent with
    | none => exact fun h => (continues_eq_false_iff.1 (hrest '.' h)).2.1 rfl
    | some e => simp [Numeral.exponentText]
  have hfraction := readFraction_append hm.fraction hnoDigit hpoint
  have hafter : NoDigit (Numeral.fractionText m.fraction ++ (Numeral.exponentText ['+'] m.exponent ++ rest)) := by
    unfold Numeral.fractionText
    split
    · exact hnoDigit
    · simp [NoDigit]
  have hwhole := readWhole_append hm.whole hm.alone hafter
  simp [readMagnitude, Numeral.text, hwhole, hfraction, hexponent]

theorem readMagnitude_digits (n : Nat) {rest : List Char} (hrest : Ends rest) :
    readMagnitude (digits n ++ rest) = some (digits n, rest) := by
  have halone : (digits n).head? = some '0' → digits n = ['0'] := by
    intro h
    rcases Nat.eq_zero_or_pos n with rfl | hpos
    · rfl
    · exact absurd h (head_digits_ne_zero hpos)
  have hwhole := readWhole_append (areDigits_digits n) halone hrest.noDigit
  have hpoint : rest.head? ≠ some '.' := fun h => (continues_eq_false_iff.1 (hrest '.' h)).2.1 rfl
  have hfraction : readFraction rest = some ([], rest) :=
    @readFraction_append [] rest (by simp) hrest.noDigit hpoint
  have hexponent : readExponent rest = some ([], rest) := readExponent_append none hrest
  simp [readMagnitude, hwhole, hfraction, hexponent]

/-- A magnitude, with a minus or without, is a token. -/
theorem isToken_of_magnitude {cs : List Char} (hstarts : ∃ d ds, cs = d :: ds ∧ d.isDigit = true)
    (hreads : ∀ rest, Ends rest → readMagnitude (cs ++ rest) = some (cs, rest)) (negative : Bool) :
    IsToken ((if negative then ['-'] else []) ++ cs) := by
  obtain ⟨d, ds, rfl, hd⟩ := hstarts
  cases negative with
  | true =>
    refine ⟨⟨'-', d :: ds, rfl, .inl rfl⟩, fun rest hrest => ?_⟩
    have hread := hreads rest hrest
    rw [List.cons_append] at hread
    simp [readToken, hread]
  | false =>
    refine ⟨⟨d, ds, rfl, .inr hd⟩, fun rest hrest => ?_⟩
    have hread := hreads rest hrest
    change readToken (d :: ds ++ rest) = some (d :: ds, rest)
    unfold readToken
    split
    next h =>
      cases h
      cases hd
    next => exact hread

namespace Number

/-- A number of a document: an integer, or a finite number that the format has. -/
def Representable : Number → Prop
  | .int _ => True
  | .real (.finite _ units) => IsUnits units
  | .real _ => False

theorem integerText_eq (n : Int) :
    integerText n = (if decide (n < 0) then ['-'] else []) ++ digits n.natAbs := by
  unfold integerText
  by_cases h : n < 0 <;> simp [h]

theorem numeral_of_token {x : Binary64} (h : (Number.real x).Representable) :
    ∃ negative units, ∃ m : Numeral, x = .finite negative units ∧ IsUnits units ∧ m.Valid ∧
      (Number.real x).token = (if negative then ['-'] else []) ++ m.text ['+'] := by
  cases x with
  | nan | infinite => cases h
  | finite negative units =>
    obtain ⟨m, hm, htext, -⟩ := numeral_of_text layout negative h
    exact ⟨negative, units, m, rfl, h, hm, htext⟩

instance : DecidablePred Representable := fun n =>
  match n with
  | .int _ => inferInstanceAs (Decidable True)
  | .real (.finite _ units) => inferInstanceAs (Decidable (IsUnits units))
  | .real .nan => inferInstanceAs (Decidable False)
  | .real (.infinite _) => inferInstanceAs (Decidable False)

/-- **A number is written as one token.** -/
theorem isToken_token {n : Number} (h : n.Representable) : IsToken n.token := by
  cases n with
  | int n =>
    obtain ⟨d, ds, hd, hdigit, -⟩ := (areDigits_digits n.natAbs).cons_head
    rw [token, integerText_eq]
    exact isToken_of_magnitude ⟨d, ds, hd, hdigit⟩ (fun rest => readMagnitude_digits n.natAbs) _
  | real x =>
    obtain ⟨negative, units, m, -, -, hm, htoken⟩ := numeral_of_token h
    rw [htoken]
    exact isToken_of_magnitude (hm.text_cons ['+']) (fun rest => readMagnitude_text hm) negative

theorem integerText_injective {n n' : Int} (h : integerText n = integerText n') : n = n' := by
  have hsign := congrArg takeSign h
  rw [takeSign_integerText, takeSign_integerText, Prod.mk.injEq, decide_eq_decide] at hsign
  have habs := congrArg ofDigits hsign.2
  rw [ofDigits_digits, ofDigits_digits] at habs
  omega

/-- The text of an integer has neither a point nor an exponent. -/
theorem integerText_ne_token {n : Int} {x : Binary64} (h : (Number.real x).Representable) :
    integerText n ≠ (Number.real x).token := by
  obtain ⟨negative, units, m, -, -, hm, htoken⟩ := numeral_of_token h
  have hmark : ∃ c ∈ m.text ['+'], c = '.' ∨ c = 'e' := by
    rcases hm.marked with hfraction | hexponent
    · exact ⟨'.', by simp [Numeral.text, Numeral.fractionText, hfraction], .inl rfl⟩
    · obtain ⟨e, he⟩ := Option.ne_none_iff_exists'.1 hexponent
      exact ⟨'e', by simp [Numeral.text, Numeral.exponentText, he], .inr rfl⟩
  obtain ⟨c, hc, hmark⟩ := hmark
  have hplain : ∀ c ∈ integerText n, c = '-' ∨ c.isDigit = true := by
    intro c hc
    rw [integerText_eq] at hc
    rcases List.mem_append.1 hc with hc | hc
    · split at hc
      · exact .inl (List.mem_singleton.1 hc)
      · cases hc
    · exact .inr (isDigit_of_mem_digits hc)
  intro he
  have hmem : c ∈ integerText n := by
    rw [he, htoken]
    exact List.mem_append_right _ hc
  rcases hmark with rfl | rfl
  · exact absurd (hplain _ hmem) (by decide)
  · exact absurd (hplain _ hmem) (by decide)

/-- **A token is the text of one number only.** -/
theorem token_injective {n n' : Number} (hn : n.Representable) (hn' : n'.Representable)
    (h : n.token = n'.token) : n = n' := by
  cases n with
  | int n =>
    cases n' with
    | int n' => rw [integerText_injective h]
    | real x => exact absurd h (integerText_ne_token hn')
  | real x =>
    cases n' with
    | int n' => exact absurd h.symm (integerText_ne_token hn)
    | real x' =>
      obtain ⟨s, units, -, rfl, hunits, -⟩ := numeral_of_token hn
      obtain ⟨s', units', -, rfl, hunits', -⟩ := numeral_of_token hn'
      have hread := readReal_text layout (.inr rfl) s hunits
      have hread' := readReal_text layout (.inr rfl) s' hunits'
      have htext : layout.text (.finite s units) = layout.text (.finite s' units') := h
      rw [htext, hread', Option.some.injEq] at hread
      rw [hread]

end Number

end Json

end FlowScript
