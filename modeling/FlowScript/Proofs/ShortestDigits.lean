/-
The shortest digits of a number. Some grid of at most eighteen digits has a
decimal between the ends of the number's interval, so that there always are
shortest digits, and they round to the number (`contains_shortest`).
-/
import FlowScript.Proofs.Rounding

namespace FlowScript

namespace Decimal

open Binary64

/-! ## Powers of ten -/

theorem powerOfTen_pos (e : Int) : 0 < (powerOfTen e).1 ∧ 0 < (powerOfTen e).2 := by
  unfold powerOfTen
  split
  · exact ⟨Nat.pow_pos (by norm_num), Nat.one_pos⟩
  · exact ⟨Nat.one_pos, Nat.pow_pos (by norm_num)⟩

theorem cast_pow_ten {e : Int} (he : 0 ≤ e) : ((Nat.pow 10 e.toNat : Nat) : ℚ) = (10 : ℚ) ^ e := by
  rw [Nat.pow_eq, Nat.cast_pow, Nat.cast_ofNat, ← zpow_natCast, Int.toNat_of_nonneg he]

theorem powerOfTen_eq (e : Int) : ((powerOfTen e).1 : ℚ) / (powerOfTen e).2 = (10 : ℚ) ^ e := by
  unfold powerOfTen
  split
  next he => rw [cast_pow_ten he, Nat.cast_one, div_one]
  next he => rw [cast_pow_ten (show 0 ≤ -e by omega), Nat.cast_one, zpow_neg, one_div, inv_inv]

/-- Powers of ten and of two compared by powers of them. -/
theorem ten_zpow_le_two_zpow {x d : Int} {p q : Nat} (hq : q ≠ 0) (hx : x * q ≤ p * d)
    (hpow : ((10 : ℚ) ^ p) ^ d ≤ ((2 : ℚ) ^ q) ^ d) : (10 : ℚ) ^ x ≤ (2 : ℚ) ^ d := by
  refine le_of_pow_le_pow_left₀ hq (zpow_nonneg two_pos.le d) ?_
  calc ((10 : ℚ) ^ x) ^ q
      = (10 : ℚ) ^ (x * q) := by rw [← zpow_natCast, ← zpow_mul]
    _ ≤ (10 : ℚ) ^ (p * d) := zpow_le_zpow_right₀ (by norm_num) hx
    _ = ((10 : ℚ) ^ p) ^ d := by rw [zpow_mul, zpow_natCast]
    _ ≤ ((2 : ℚ) ^ q) ^ d := hpow
    _ = ((2 : ℚ) ^ d) ^ q := by rw [← zpow_natCast, ← zpow_natCast, zpow_comm]

/-- The decimal exponent of a power of two, as it is guessed, is at most one too high. -/
theorem ten_zpow_guess_le {d : Int} (hlow : -10000 ≤ d) (hhigh : d ≤ 10000) :
    (10 : ℚ) ^ (d * 30103 / 100000 - 1) ≤ (2 : ℚ) ^ d := by
  rcases le_or_gt 0 d with hd | hd
  · refine ten_zpow_le_two_zpow (p := 31) (q := 103) (by norm_num) (by omega) ?_
    exact zpow_le_zpow_left₀ hd (by norm_num) (by norm_num)
  · refine ten_zpow_le_two_zpow (p := 28) (q := 93) (by norm_num) (by omega) ?_
    exact zpow_le_zpow_of_nonpos (by norm_num) (by norm_num) hd.le

/-- **The guessed exponent is not too high.** -/
theorem ten_zpow_leadingExponent_le {value scale n : Nat} (hvalue : 0 < value) (hscale : scale = 2 ^ n)
    (hlow : n ≤ 10000) (hhigh : value.log2 ≤ n + 10000) :
    (10 : ℚ) ^ leadingExponent value scale * scale ≤ value := by
  have hreaches : ∀ e, decide ((powerOfTen e).1 * scale ≤ value * (powerOfTen e).2) = true →
      (10 : ℚ) ^ e * scale ≤ value := by
    intro e he
    have hpos : (0 : ℚ) < (powerOfTen e).2 := Nat.cast_pos.2 (powerOfTen_pos e).2
    rw [← powerOfTen_eq, div_mul_eq_mul_div, div_le_iff₀ hpos]
    exact_mod_cast of_decide_eq_true he
  unfold leadingExponent
  dsimp only
  split_ifs with h1 h2
  · exact hreaches _ h1
  · exact hreaches _ h2
  · have hlog : scale.log2 = n := by rw [hscale, Nat.log2_two_pow]
    have hguess := @ten_zpow_guess_le (value.log2 - n) (by omega) (by omega)
    have hpow : (0 : ℚ) < (2 : ℚ) ^ (n : ℤ) := zpow_pos two_pos _
    have hscaleCast : (scale : ℚ) = (2 : ℚ) ^ (n : ℤ) := by rw [hscale, Nat.cast_pow, Nat.cast_ofNat, zpow_natCast]
    rw [hlog, hscaleCast]
    calc (10 : ℚ) ^ ((value.log2 - n : ℤ) * 30103 / 100000 - 1) * (2 : ℚ) ^ (n : ℤ)
        ≤ (2 : ℚ) ^ (value.log2 - n : ℤ) * (2 : ℚ) ^ (n : ℤ) := mul_le_mul_of_nonneg_right hguess hpow.le
      _ = (2 : ℚ) ^ (value.log2 : ℤ) := by rw [← zpow_add₀ two_ne_zero, sub_add_cancel]
      _ = (2 ^ value.log2 : Nat) := by rw [Nat.cast_pow, Nat.cast_ofNat, zpow_natCast]
      _ ≤ value := Nat.cast_le.2 (Nat.log2_self_le hvalue.ne')

/-! ## Grids -/

namespace Interval

variable {i : Interval} {tie : Tie}

theorem holds_of_onGrid? {numerator denominator n : Nat} (h : i.onGrid? tie numerator denominator = some n) :
    0 < n ∧ i.holds n numerator denominator = true := by
  have hpick : ∀ {first second : Nat}, (if 0 < first && i.holds first numerator denominator then some first
      else if 0 < second && i.holds second numerator denominator then some second else none) = some n →
      0 < n ∧ i.holds n numerator denominator = true := by
    intro first second hpick
    split_ifs at hpick with h1 h2
    · cases hpick
      simpa using h1
    · cases hpick
      simpa using h2
  exact hpick h

/-- A grid whose step is shorter than the upper half of the interval has a decimal in it. -/
theorem onGrid?_isSome {numerator denominator : Nat} (hnum : 0 < numerator * i.scale)
    (hlow : i.low ≤ i.value)
    (hfine : i.value * denominator + numerator * i.scale < i.high * denominator) :
    (i.onGrid? tie numerator denominator).isSome = true := by
  have hup : i.holds (i.value * denominator / (numerator * i.scale) + 1) numerator denominator = true := by
    have hdiv := Nat.div_add_mod (i.value * denominator) (numerator * i.scale)
    have hrest := Nat.mod_lt (i.value * denominator) hnum
    have hbelow := Nat.mul_le_mul_right denominator hlow
    rw [Nat.mul_comm (numerator * i.scale)] at hdiv
    unfold holds
    dsimp only
    rw [Nat.mul_assoc, Nat.succ_mul]
    generalize i.value * denominator / (numerator * i.scale) * (numerator * i.scale) = down at *
    split_ifs <;> simp <;> omega
  unfold onGrid?
  dsimp only
  -- The decimal above the number is one of the two that are tried.
  have hpick : ∀ {up down : Nat} {c : Prop} [Decidable c], 0 < up → i.holds up numerator denominator = true →
      (if 0 < (if c then up else down) && i.holds (if c then up else down) numerator denominator then
          some (if c then up else down)
        else if 0 < (if c then down else up) && i.holds (if c then down else up) numerator denominator then
          some (if c then down else up)
        else none).isSome = true := by
    intro up down c _ hpos hholds
    by_cases hc : c
    · simp [hc, hpos, hholds]
    · simp only [hc, if_false, hpos, hholds, decide_true, Bool.and_true, if_true]
      split_ifs <;> rfl
  exact hpick (Nat.succ_pos _) hup

/-- The first grid that has a decimal in the interval. -/
theorem holds_of_firstGrid {leading : Int} {fuel digits n : Nat} {e : Int}
    (h : i.firstGrid tie leading fuel digits = some (n, e)) :
    0 < n ∧ i.holds n (powerOfTen e).1 (powerOfTen e).2 = true := by
  induction fuel generalizing digits with
  | zero => cases h
  | succ fuel ih =>
    unfold firstGrid at h
    dsimp only at h
    split at h
    next m hm =>
      cases h
      exact holds_of_onGrid? hm
    next => exact ih h

theorem firstGrid_isSome {leading : Int} {fuel digits : Nat} {k : Nat} (hk : k < fuel)
    (h : (i.onGrid? tie (powerOfTen (leading - (digits + k : Nat))).1
      (powerOfTen (leading - (digits + k : Nat))).2).isSome = true) :
    (i.firstGrid tie leading fuel digits).isSome = true := by
  induction fuel generalizing digits k with
  | zero => cases hk
  | succ fuel ih =>
    unfold firstGrid
    dsimp only
    split
    · rfl
    next hnone =>
      cases k with
      | zero =>
        rw [Nat.add_zero, hnone] at h
        cases h
      | succ k =>
        refine ih (k := k) (by omega) ?_
        rwa [Nat.add_right_comm]

end Interval

/-! ## Shortest digits -/

section Shortest

variable {units : Nat} (hpos : 0 < units) (hmax : units < overflowUnits)
include hpos hmax

theorem log2_four_mul_lt : (4 * units).log2 < overflowExponent + 2 := by
  refine (Nat.log2_lt (by omega)).2 ?_
  have hover := four_mul_pow overflowExponent
  unfold overflowUnits at hmax
  rw [Nat.pow_eq] at hover
  rw [hover]
  exact Nat.mul_lt_mul_of_pos_left hmax (by norm_num)

theorem leadingExponent_units_le :
    (10 : ℚ) ^ leadingExponent (Interval.ofUnits units).value (Interval.ofUnits units).scale *
      (Interval.ofUnits units).scale ≤ 4 * units := by
  have hvalue : (Interval.ofUnits units).value = 4 * units := rfl
  have hscale : (Interval.ofUnits units).scale = 2 ^ (unitExponent + 2) := by
    unfold Interval.ofUnits
    dsimp only
    rw [Nat.pow_eq]
  have hlog := log2_four_mul_lt hpos hmax
  have hbounds : unitExponent + 2 ≤ 10000 ∧ overflowExponent + 2 ≤ unitExponent + 2 + 10000 := by decide
  have h := @ten_zpow_leadingExponent_le (4 * units) _ _ (by omega) hscale hbounds.1 (by omega)
  rw [hvalue]
  exact_mod_cast h

/-- Eighteen digits suffice. -/
theorem firstGrid_ofUnits_isSome (tie : Tie) :
    ((Interval.ofUnits units).firstGrid tie
      (leadingExponent (Interval.ofUnits units).value (Interval.ofUnits units).scale) 18 0).isSome = true := by
  have hleading := leadingExponent_units_le hpos hmax
  generalize leadingExponent (Interval.ofUnits units).value (Interval.ofUnits units).scale = leading at *
  obtain ⟨hnum, hden⟩ := powerOfTen_pos (leading - (0 + 17 : Nat))
  have hscale := scale_pos units
  have hunits : units < 2 ^ 53 * step units := by
    rcases step_cases hpos with h | ⟨n, hs, -, hlt⟩
    · rwa [step_of_lt h, Nat.mul_one]
    · rwa [hs]
  -- A grid of eighteen digits is finer than half a step.
  have hfine : (powerOfTen (leading - (0 + 17 : Nat))).1 * (Interval.ofUnits units).scale <
      2 * step units * (powerOfTen (leading - (0 + 17 : Nat))).2 := by
    have hten : (0 : ℚ) < 10 := by norm_num
    have hcast : (units : ℚ) < 2 ^ 53 * step units := by exact_mod_cast hunits
    have hgrid : (10 : ℚ) ^ (leading - (0 + 17 : Nat)) * (Interval.ofUnits units).scale < 2 * step units := by
      rw [zpow_sub₀ hten.ne', div_mul_eq_mul_div, div_lt_iff₀ (zpow_pos hten _)]
      refine hleading.trans_lt ?_
      norm_num
      linarith
    rw [← powerOfTen_eq, div_mul_eq_mul_div, div_lt_iff₀ (Nat.cast_pos.2 hden)] at hgrid
    exact_mod_cast hgrid
  have hbounds : (Interval.ofUnits units).value = 4 * units ∧
      (Interval.ofUnits units).high = 4 * units + 2 * step units := ⟨rfl, rfl⟩
  refine Interval.firstGrid_isSome (k := 17) (by norm_num)
    (Interval.onGrid?_isSome (Nat.mul_pos hnum hscale) (Nat.sub_le _ _) ?_)
  rw [hbounds.1, hbounds.2, Nat.add_mul]
  exact Nat.add_lt_add_left hfine _

/-- **The shortest digits of a number round to it.** -/
theorem contains_shortest (tie : Tie) :
    0 < (shortest tie units).1 ∧
      (Interval.ofUnits units).Contains ((shortest tie units).1 * (10 : ℚ) ^ (shortest tie units).2) := by
  obtain ⟨⟨n, e⟩, hfirst⟩ := Option.isSome_iff_exists.1 (firstGrid_ofUnits_isSome hpos hmax tie)
  have hshortest : shortest tie units = (n, e) := by
    unfold shortest
    dsimp only
    rw [hfirst, Option.getD_some]
  obtain ⟨hn, hholds⟩ := Interval.holds_of_firstGrid hfirst
  rw [hshortest, ← powerOfTen_eq]
  exact ⟨hn, (Interval.holds_iff _ n _ (powerOfTen_pos e).2).1 hholds⟩

end Shortest

end Decimal

end FlowScript
