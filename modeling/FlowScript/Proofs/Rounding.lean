/-
What rounds to a floating-point number. The reals between the ends of
`Interval.ofUnits units` are those that `round` takes to `units`
(`round_of_contains`).
-/
import FlowScript.Decimal.Reading
import FlowScript.Decimal.Shortest
import Mathlib.Algebra.Order.Field.Power
import Mathlib.Data.Rat.Cast.Order
import Mathlib.Tactic.Linarith
import Mathlib.Tactic.FieldSimp
import Mathlib.Tactic.Ring

namespace FlowScript

namespace Binary64

/-! ## Rounding to the nearest integer -/

theorem nearest_eq {a b q : Nat} (hb : 0 < b) (hlow : 2 * (q * b) ≤ 2 * a + b)
    (hhigh : 2 * a ≤ 2 * (q * b) + b) (hlowTie : 2 * (q * b) = 2 * a + b → q % 2 = 0)
    (hhighTie : 2 * a = 2 * (q * b) + b → q % 2 = 0) : nearest a b = q := by
  have hdiv := Nat.div_add_mod a b
  have hrest := Nat.mod_lt a hb
  unfold nearest
  dsimp only
  generalize a / b = d at *
  generalize a % b = r at *
  have hle : d ≤ q := by
    by_contra h
    have : b * (q + 1) ≤ b * d := Nat.mul_le_mul_left b (by omega)
    have := Nat.mul_add b q 1
    have := Nat.mul_comm b q
    omega
  have hge : q ≤ d + 1 := by
    by_contra h
    have : b * (d + 2) ≤ b * q := Nat.mul_le_mul_left b (by omega)
    have := Nat.mul_add b d 2
    have := Nat.mul_comm b q
    omega
  rcases Nat.eq_or_lt_of_le hle with rfl | hlt
  · have := Nat.mul_comm b d
    split_ifs <;> omega
  · obtain rfl : q = d + 1 := by omega
    have := Nat.add_mul d 1 b
    have := Nat.mul_comm b d
    split_ifs <;> omega

/-! ## Representable numbers -/

/-- A whole number of steps, below where finite numbers end. -/
def IsUnits (units : Nat) : Prop := units % step units = 0 ∧ units < overflowUnits

instance : DecidablePred IsUnits := fun units =>
  inferInstanceAs (Decidable (units % step units = 0 ∧ units < overflowUnits))

theorem step_of_lt {units : Nat} (h : units < 2 ^ 53) : step units = 1 := by
  have hlog : units.log2 - 52 = 0 := by
    rcases Nat.eq_zero_or_pos units with rfl | hpos
    · decide
    · have := (Nat.log2_lt hpos.ne').2 h
      omega
  rw [step, hlog]

theorem step_of_between {units n : Nat} (hlow : 2 ^ 52 * 2 ^ n ≤ units) (hhigh : units < 2 ^ 53 * 2 ^ n) :
    step units = 2 ^ n := by
  have hpos : units ≠ 0 := by
    have := Nat.two_pow_pos n
    omega
  have hlog : units.log2 = n + 52 := by
    refine (Nat.log2_eq_iff hpos).2 ⟨?_, ?_⟩
    · rwa [Nat.pow_add, Nat.mul_comm]
    · rwa [Nat.add_assoc, Nat.pow_add, Nat.mul_comm]
  rw [step, hlog, Nat.add_sub_cancel, Nat.pow_eq]

/-- Either the steps are units, or the number has 53 digits in steps. -/
theorem step_cases {units : Nat} (hpos : 0 < units) :
    units < 2 ^ 53 ∨ ∃ n, step units = 2 ^ (n + 1) ∧ 2 ^ 52 * 2 ^ (n + 1) ≤ units ∧
      units < 2 ^ 53 * 2 ^ (n + 1) := by
  rcases Nat.lt_or_ge units (2 ^ 53) with h | h
  · exact .inl h
  · obtain ⟨n, hn⟩ := Nat.exists_eq_add_of_le ((Nat.le_log2 hpos.ne').2 h)
    have hself := Nat.log2_self_le hpos.ne'
    have hlt := @Nat.lt_log2_self units
    have hlow : 2 ^ 52 * 2 ^ (n + 1) = 2 ^ units.log2 := by
      rw [hn, ← Nat.pow_add]
      congr 1
      omega
    have hhigh : 2 ^ 53 * 2 ^ (n + 1) = 2 ^ (units.log2 + 1) := by
      rw [hn, ← Nat.pow_add]
      rfl
    rw [← hlow] at hself
    rw [← hhigh] at hlt
    exact .inr ⟨n, step_of_between hself hlt, hself, hlt⟩

end Binary64

namespace Decimal

open Binary64

/-! ## Intervals -/

/-- A real that lies in the interval. -/
def Interval.Contains (i : Interval) (x : ℚ) : Prop :=
  if i.closed then i.low ≤ x * i.scale ∧ x * i.scale ≤ i.high
  else i.low < x * i.scale ∧ x * i.scale < i.high

theorem Interval.holds_iff (i : Interval) (n numerator : Nat) {denominator : Nat} (h : 0 < denominator) :
    i.holds n numerator denominator = true ↔ i.Contains (n * (numerator / denominator)) := by
  have hden : (0 : ℚ) < denominator := Nat.cast_pos.2 h
  have hscaled : (n : ℚ) * (numerator / denominator) * i.scale = (n * numerator * i.scale : Nat) / denominator := by
    push_cast
    ring
  have hle : ∀ m : Nat, (m : ℚ) ≤ (n * numerator * i.scale : Nat) / denominator ↔
      m * denominator ≤ n * numerator * i.scale := by
    intro m
    rw [le_div_iff₀ hden]
    exact_mod_cast Iff.rfl
  have hge : ∀ m : Nat, (n * numerator * i.scale : Nat) / (denominator : ℚ) ≤ m ↔
      n * numerator * i.scale ≤ m * denominator := by
    intro m
    rw [div_le_iff₀ hden]
    exact_mod_cast Iff.rfl
  rw [Contains, hscaled, ← not_le, ← not_le, hle, hge, hle, hge, holds]
  split_ifs <;> simp

end Decimal

namespace Binary64

open Decimal

theorem four_mul_pow (n : Nat) : Nat.pow 2 (n + 2) = 4 * Nat.pow 2 n := by
  rw [Nat.pow_eq, Nat.pow_eq, Nat.pow_add, Nat.mul_comm]

theorem scale_ofUnits (units : Nat) : (Interval.ofUnits units).scale = 4 * Nat.pow 2 unitExponent := by
  unfold Interval.ofUnits
  dsimp only
  rw [four_mul_pow]

theorem scale_pos (units : Nat) : 0 < (Interval.ofUnits units).scale := by
  unfold Interval.ofUnits
  dsimp only
  generalize unitExponent + 2 = n
  rw [Nat.pow_eq]
  exact Nat.two_pow_pos n

/-- How far below a number its interval reaches, in quarters of a unit. -/
def reachBelow (units : Nat) : Nat :=
  if units / step units = 0x10000000000000 ∧ 1 < step units then step units else 2 * step units

/-- The bounds of the interval of a number, multiplied out. -/
theorem bounds_of_contains {units n d : Nat} (hd : 0 < d) (h : (Interval.ofUnits units).Contains (n / d)) :
    4 * (units * d) ≤ 4 * (n * Nat.pow 2 unitExponent) + reachBelow units * d ∧
      4 * (n * Nat.pow 2 unitExponent) ≤ 4 * (units * d) + 2 * (step units * d) ∧
      (units / step units % 2 ≠ 0 → 4 * (units * d) < 4 * (n * Nat.pow 2 unitExponent) + reachBelow units * d ∧
        4 * (n * Nat.pow 2 unitExponent) < 4 * (units * d) + 2 * (step units * d)) := by
  have hholds := (Interval.holds_iff (Interval.ofUnits units) 1 n hd).2 (by simpa using h)
  have hscale : 1 * n * (Interval.ofUnits units).scale = 4 * (n * Nat.pow 2 unitExponent) := by
    rw [scale_ofUnits, Nat.one_mul, Nat.mul_left_comm]
  have hlow : (Interval.ofUnits units).low * d = 4 * (units * d) - reachBelow units * d := by
    rw [← Nat.mul_assoc, ← Nat.sub_mul]
    rfl
  have hhigh : (Interval.ofUnits units).high * d = 4 * (units * d) + 2 * (step units * d) := by
    rw [← Nat.mul_assoc, ← Nat.mul_assoc, ← Nat.add_mul]
    rfl
  have hclosed : (Interval.ofUnits units).closed = decide (units / step units % 2 = 0) := rfl
  rw [Interval.holds, hscale, hlow, hhigh, hclosed] at hholds
  generalize reachBelow units * d = w at *
  generalize units * d = p at *
  generalize step units * d = b at *
  generalize n * Nat.pow 2 unitExponent = a at *
  by_cases heven : units / step units % 2 = 0
  · simp [heven] at hholds
    omega
  · simp [heven] at hholds
    omega

/-- Between half a step below and half a step above, one rounds to the number. -/
theorem nearest_step {units a d s k : Nat} (hd : 0 < d) (hs : 0 < s) (hunits : units = k * s)
    (hlow : 4 * (units * d) ≤ 4 * a + 2 * (s * d)) (hhigh : 4 * a ≤ 4 * (units * d) + 2 * (s * d))
    (htie : k % 2 ≠ 0 → 4 * (units * d) < 4 * a + 2 * (s * d) ∧ 4 * a < 4 * (units * d) + 2 * (s * d)) :
    nearest a (d * s) * s = units := by
  have hk : k * (d * s) = units * d := by
    rw [hunits]
    ring
  have hb : d * s = s * d := Nat.mul_comm d s
  rw [nearest_eq (q := k) (Nat.mul_pos hd hs) (by omega) (by omega) (by omega) (by omega), hunits]

/-- The floor of a quotient, and its bounds multiplied out. -/
theorem floor_bounds {a d : Nat} (hd : 0 < d) :
    (∀ m, a < m * d → a / d < m) ∧ ∀ m, m * d ≤ a → m ≤ a / d :=
  ⟨fun _ => (Nat.div_lt_iff_lt_mul hd).2, fun _ => (Nat.le_div_iff_mul_le hd).2⟩

section Nearest

variable {units a d : Nat} (hd : 0 < d)
  (hlow : 4 * (units * d) ≤ 4 * a + reachBelow units * d)
  (hhigh : 4 * a ≤ 4 * (units * d) + 2 * (step units * d))
  (hodd : units / step units % 2 ≠ 0 → 4 * (units * d) < 4 * a + reachBelow units * d ∧
    4 * a < 4 * (units * d) + 2 * (step units * d))
include hd hlow hhigh hodd

/-- Where the steps are units they remain so. -/
theorem nearest_small (hsmall : units < 2 ^ 53) : nearest a (d * step (a / d)) * step (a / d) = units := by
  have hs := step_of_lt hsmall
  have hreach : reachBelow units = 2 := by
    rw [reachBelow, hs, if_neg (by omega)]
  rw [hs, Nat.div_one] at hodd
  simp only [hreach, hs, Nat.one_mul] at hlow hhigh hodd
  have hprod : units * d ≤ (2 ^ 53 - 1) * d := Nat.mul_le_mul_right d (by omega)
  rw [step_of_lt ((floor_bounds hd).1 _ (by omega))]
  exact nearest_step hd Nat.one_pos (Nat.mul_one units).symm (by omega) (by omega) (by omega)

/-- With 53 digits the steps remain the same, but just below a power of two they are half as long. -/
theorem nearest_large (hstep : units % step units = 0) {j : Nat} (hs : step units = 2 ^ (j + 1))
    (hmin : 2 ^ 52 * 2 ^ (j + 1) ≤ units) (hbig : units < 2 ^ 53 * 2 ^ (j + 1)) :
    nearest a (d * step (a / d)) * step (a / d) = units := by
  have hk := (Nat.div_mul_cancel (Nat.dvd_of_mod_eq_zero hstep)).symm
  have hreach : reachBelow units =
      if units / step units = 2 ^ 52 then 2 ^ (j + 1) else 2 * 2 ^ (j + 1) := by
    have hone : 1 < 2 ^ (j + 1) := Nat.one_lt_two_pow (Nat.succ_ne_zero j)
    simp only [reachBelow, hs, hone, and_true]
    rfl
  rw [hreach, hs] at hlow hodd
  rw [hs] at hk hhigh
  have hpos := Nat.two_pow_pos j
  have hpow : 2 ^ (j + 1) = 2 * 2 ^ j := Nat.pow_succ'
  generalize units / 2 ^ (j + 1) = k at *
  have hkmin : 2 ^ 52 ≤ k := by
    by_contra hlt
    have := Nat.mul_le_mul_right (2 ^ (j + 1)) (show k ≤ 2 ^ 52 - 1 by omega)
    omega
  have hkbig : k < 2 ^ 53 := by
    by_contra hge
    have := Nat.mul_le_mul_right (2 ^ (j + 1)) (Nat.not_lt.1 hge)
    omega
  -- Everything is linear in the number and its step, both times `d`.
  have hp : units * d = k * (2 ^ (j + 1) * d) := by
    rw [hk]
    ring
  have htop : k * (2 ^ (j + 1) * d) + 2 ^ (j + 1) * d ≤ 2 ^ 53 * (2 ^ (j + 1) * d) := by
    rw [← Nat.succ_mul]
    exact Nat.mul_le_mul_right _ hkbig
  have hb : 2 ^ (j + 1) * d = 2 * (2 ^ j * d) := by
    rw [hpow]
    ring
  have hbpos : 0 < 2 ^ j * d := Nat.mul_pos hpos hd
  have hassoc : ∀ m n : Nat, m * 2 ^ n * d = m * (2 ^ n * d) := fun m n => Nat.mul_assoc m (2 ^ n) d
  by_cases hedge : k = 2 ^ 52 ∧ a < units * d
  · obtain ⟨rfl, hbelow⟩ := hedge
    rw [if_pos rfl] at hlow
    have hfloor : step (a / d) = 2 ^ j := by
      refine step_of_between ((floor_bounds hd).2 _ ?_) ((floor_bounds hd).1 _ ?_)
      · rw [hassoc]
        omega
      · rw [hassoc]
        omega
    have hunits : units = 2 ^ 53 * 2 ^ j := by omega
    rw [hfloor]
    exact nearest_step hd hpos hunits (by omega) (by omega) (fun h => absurd (by decide) h)
  · have hbounds : 2 ^ 52 * (2 ^ (j + 1) * d) ≤ a ∧ 4 * (units * d) ≤ 4 * a + 2 * (2 ^ (j + 1) * d) ∧
        (k % 2 ≠ 0 → 4 * (units * d) < 4 * a + 2 * (2 ^ (j + 1) * d)) := by
      by_cases hk52 : k = 2 ^ 52
      · have hge : units * d ≤ a := Nat.not_lt.1 fun h => hedge ⟨hk52, h⟩
        subst hk52
        omega
      · rw [if_neg hk52, Nat.mul_assoc] at hlow hodd
        have hmore : (2 ^ 52 + 1) * (2 ^ (j + 1) * d) ≤ k * (2 ^ (j + 1) * d) :=
          Nat.mul_le_mul_right _ (by omega)
        exact ⟨by omega, hlow, fun h => (hodd h).1⟩
    have hfloor : step (a / d) = 2 ^ (j + 1) := by
      refine step_of_between ((floor_bounds hd).2 _ ?_) ((floor_bounds hd).1 _ ?_)
      · rw [hassoc]
        exact hbounds.1
      · rw [hassoc]
        omega
    rw [hfloor]
    exact nearest_step hd (Nat.two_pow_pos _) hk hbounds.2.1 hhigh fun h => ⟨hbounds.2.2 h, (hodd h).2⟩

end Nearest

/-- **A number is what the reals of its interval round to.** -/
theorem round_of_contains {units n d : Nat} (negative : Bool) (hunits : IsUnits units) (hpos : 0 < units)
    (hd : 0 < d) (h : (Interval.ofUnits units).Contains (n / d)) :
    round negative n d = .finite negative units := by
  obtain ⟨hstep, hmax⟩ := hunits
  obtain ⟨hlow, hhigh, hodd⟩ := bounds_of_contains hd h
  have hnearest : nearest (n * Nat.pow 2 unitExponent) (d * step (n * Nat.pow 2 unitExponent / d)) *
      step (n * Nat.pow 2 unitExponent / d) = units := by
    rcases step_cases hpos with hsmall | ⟨j, hs, hmin, hbig⟩
    · exact nearest_small hd hlow hhigh hodd hsmall
    · exact nearest_large hd hlow hhigh hodd hstep hs hmin hbig
  rw [round]
  simp only [hnearest, Nat.not_le.2 hmax, if_false]

theorem step_le {units : Nat} (hpos : 0 < units) : step units ≤ units := by
  rcases step_cases hpos with h | ⟨n, hs, hmin, -⟩
  · rw [step_of_lt h]
    exact hpos
  · rw [hs]
    omega

end Binary64

namespace Decimal

open Binary64

/-! ## Rounding decimals -/

theorem Interval.Contains.between {i : Interval} {x : ℚ} (h : i.Contains x) :
    i.low ≤ x * i.scale ∧ x * i.scale ≤ i.high := by
  unfold Contains at h
  split at h
  · exact h
  · exact ⟨h.1.le, h.2.le⟩

/-- A larger base has smaller powers where the exponent is negative. -/
theorem zpow_le_zpow_of_nonpos {a b : ℚ} (ha : 0 < a) (hab : a ≤ b) {e : ℤ} (he : e ≤ 0) : b ^ e ≤ a ^ e := by
  obtain ⟨n, hn⟩ := Int.eq_ofNat_of_zero_le (show 0 ≤ -e by omega)
  rw [← neg_neg e, hn, zpow_neg, zpow_neg, zpow_natCast, zpow_natCast]
  exact inv_anti₀ (pow_pos ha n) (pow_le_pow_left₀ ha.le hab n)

theorem cast_pow_two (n : Nat) : ((Nat.pow 2 n : Nat) : ℚ) = (2 : ℚ) ^ (n : ℤ) := by
  rw [Nat.pow_eq, Nat.cast_pow, Nat.cast_ofNat, zpow_natCast]

theorem cast_scale (units : Nat) : ((Interval.ofUnits units).scale : ℚ) = (2 : ℚ) ^ (1076 : ℤ) := by
  rw [scale_ofUnits, Nat.cast_mul, cast_pow_two, show (1076 : ℤ) = 2 + unitExponent from rfl,
    zpow_add₀ two_ne_zero]
  norm_num

/-- What rounds to a number lies in the range of the format. -/
theorem range_of_contains {units : Nat} (hunits : IsUnits units) (hpos : 0 < units) {x : ℚ}
    (h : (Interval.ofUnits units).Contains x) : (2 : ℚ) ^ (-1075 : ℤ) ≤ x ∧ x < (2 : ℚ) ^ (1025 : ℤ) := by
  obtain ⟨hlow, hhigh⟩ := h.between
  have hstep := step_le hpos
  have hreach : reachBelow units ≤ 2 * step units := by
    unfold reachBelow
    split <;> omega
  have hlow' : 2 ≤ (Interval.ofUnits units).low := by
    change 2 ≤ 4 * units - reachBelow units
    omega
  have hhigh' : (Interval.ofUnits units).high ≤ 6 * units := by
    change 4 * units + 2 * step units ≤ 6 * units
    omega
  have hmax : ((6 * units : Nat) : ℚ) < 8 * (2 : ℚ) ^ (2098 : ℤ) := by
    have hlt : (units : ℚ) < overflowUnits := Nat.cast_lt.2 hunits.2
    have hpositive : (0 : ℚ) < (2 : ℚ) ^ (2098 : ℤ) := zpow_pos two_pos _
    have hover : (overflowUnits : ℚ) = (2 : ℚ) ^ (overflowExponent : ℤ) := by
      unfold overflowUnits
      exact cast_pow_two _
    have hexponent : (overflowExponent : ℤ) = 2098 := rfl
    rw [hover, hexponent] at hlt
    rw [Nat.cast_mul, Nat.cast_ofNat]
    generalize (2 : ℚ) ^ (2098 : ℤ) = m at *
    linarith
  have hscale : (0 : ℚ) < (2 : ℚ) ^ (1076 : ℤ) := zpow_pos two_pos _
  rw [cast_scale] at hlow hhigh
  refine ⟨le_of_mul_le_mul_right ?_ hscale, lt_of_mul_lt_mul_right ?_ hscale.le⟩
  · calc (2 : ℚ) ^ (-1075 : ℤ) * (2 : ℚ) ^ (1076 : ℤ)
        = (2 : ℚ) ^ (1 : ℤ) := by rw [← zpow_add₀ two_ne_zero]; rfl
      _ = (2 : Nat) := zpow_one _
      _ ≤ (Interval.ofUnits units).low := Nat.cast_le.2 hlow'
      _ ≤ x * (2 : ℚ) ^ (1076 : ℤ) := hlow
  · calc x * (2 : ℚ) ^ (1076 : ℤ)
        ≤ (Interval.ofUnits units).high := hhigh
      _ ≤ (6 * units : Nat) := Nat.cast_le.2 hhigh'
      _ < 8 * (2 : ℚ) ^ (2098 : ℤ) := hmax
      _ = (2 : ℚ) ^ (3 : ℤ) * (2 : ℚ) ^ (2098 : ℤ) := by norm_num
      _ = (2 : ℚ) ^ (1025 : ℤ) * (2 : ℚ) ^ (1076 : ℤ) := by
        rw [← zpow_add₀ two_ne_zero, ← zpow_add₀ two_ne_zero]; rfl

theorem two_zpow_le_of_large {significand : Nat} {e : Int} (hsig : significand ≠ 0) (he : 400 < e) :
    (2 : ℚ) ^ (1025 : ℤ) ≤ significand * (10 : ℚ) ^ e := by
  have hone : (1 : ℚ) ≤ significand := by exact_mod_cast Nat.one_le_iff_ne_zero.2 hsig
  have hten : (2 : ℚ) ^ (1203 : ℤ) ≤ (10 : ℚ) ^ (401 : ℤ) := by
    rw [show (1203 : ℤ) = 3 * 401 from rfl, zpow_mul]
    exact zpow_le_zpow_left₀ (by norm_num) (by norm_num) (by norm_num)
  calc (2 : ℚ) ^ (1025 : ℤ)
      ≤ (2 : ℚ) ^ (1203 : ℤ) := zpow_le_zpow_right₀ one_le_two (by norm_num)
    _ ≤ (10 : ℚ) ^ (401 : ℤ) := hten
    _ ≤ (10 : ℚ) ^ e := zpow_le_zpow_right₀ (by norm_num) he
    _ ≤ significand * (10 : ℚ) ^ e := le_mul_of_one_le_left (zpow_nonneg (by norm_num) e) hone

theorem lt_two_zpow_of_small {significand : Nat} {e : Int} (he : e + significand.log2 < -1200) :
    significand * (10 : ℚ) ^ e < (2 : ℚ) ^ (-1075 : ℤ) := by
  have hlog : (significand : ℚ) < (2 : ℚ) ^ (significand.log2 + 1 : ℤ) := by
    exact_mod_cast @Nat.lt_log2_self significand
  have hten : (10 : ℚ) ^ e ≤ (2 : ℚ) ^ e := zpow_le_zpow_of_nonpos two_pos (by norm_num) (by omega)
  calc significand * (10 : ℚ) ^ e
      < (2 : ℚ) ^ (significand.log2 + 1 : ℤ) * (10 : ℚ) ^ e :=
        mul_lt_mul_of_pos_right hlog (zpow_pos (by norm_num) e)
    _ ≤ (2 : ℚ) ^ (significand.log2 + 1 : ℤ) * (2 : ℚ) ^ e :=
        mul_le_mul_of_nonneg_left hten (zpow_nonneg two_pos.le _)
    _ = (2 : ℚ) ^ (significand.log2 + 1 + e : ℤ) := (zpow_add₀ two_ne_zero _ _).symm
    _ ≤ (2 : ℚ) ^ (-1075 : ℤ) := zpow_le_zpow_right₀ one_le_two (by omega)

/-- Where no shortcut is taken, a decimal is rounded as a fraction. -/
theorem scaled_eq_round (negative : Bool) {significand : Nat} {e : Int} (hsig : significand ≠ 0)
    (hlarge : ¬ 400 < e) (hsmall : ¬ e + significand.log2 < -1200) :
    ∃ n d : Nat, 0 < d ∧ (n / d : ℚ) = significand * (10 : ℚ) ^ e ∧
      scaled negative significand e = round negative n d := by
  rw [scaled, if_neg hsig, if_neg hlarge, if_neg hsmall]
  split
  next he =>
    refine ⟨_, _, Nat.one_pos, ?_, rfl⟩
    rw [Nat.cast_mul, Nat.cast_one, div_one, Nat.pow_eq, Nat.cast_pow, Nat.cast_ofNat, ← zpow_natCast,
      Int.toNat_of_nonneg he]
  next he =>
    refine ⟨_, _, Nat.pow_pos (by norm_num), ?_, rfl⟩
    rw [Nat.cast_pow, Nat.cast_ofNat, ← zpow_natCast, Int.toNat_of_nonneg (by omega), zpow_neg, div_inv_eq_mul]

/-- A decimal is rounded to the number whose interval it lies in. -/
theorem scaled_of_contains (negative : Bool) {units significand : Nat} {e : Int} (hunits : IsUnits units)
    (hpos : 0 < units) (h : (Interval.ofUnits units).Contains (significand * (10 : ℚ) ^ e)) :
    scaled negative significand e = .finite negative units := by
  obtain ⟨hmin, hmax⟩ := range_of_contains hunits hpos h
  have hsig : significand ≠ 0 := by
    rintro rfl
    rw [Nat.cast_zero, zero_mul] at hmin
    exact absurd (zpow_pos two_pos _) (not_lt.2 hmin)
  have hlarge : ¬ 400 < e := fun he => absurd hmax (not_lt.2 (two_zpow_le_of_large hsig he))
  have hsmall : ¬ e + significand.log2 < -1200 := fun he => absurd hmin (not_le.2 (lt_two_zpow_of_small he))
  obtain ⟨n, d, hd, hvalue, hround⟩ := scaled_eq_round negative hsig hlarge hsmall
  rw [hround]
  exact round_of_contains negative hunits hpos hd (hvalue ▸ h)

end Decimal

end FlowScript
