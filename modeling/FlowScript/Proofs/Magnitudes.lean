/-
Which decimals round to a finite number, and which to zero. Between the
largest finite number and the power of two that would follow it, the upper
half is rounded up, so a magnitude is finite below `huge`; and the lower half
of the first step is rounded down, so it is zero up to `tiny`
(`scaled_cases`).
-/
import FlowScript.Proofs.Representable

namespace FlowScript

namespace Binary64

/-- The least magnitude that rounds to infinity: half a step below 2^1024. -/
def huge : ℚ := 2 ^ 1024 - 2 ^ 970

/-- The greatest magnitude that rounds to zero: half a unit. -/
def tiny : ℚ := 1 / 2 ^ 1075

/-! ## Rounding of fractions -/

/-- A tie goes up to an even number. -/
theorem le_nearest_iff {a b n : Nat} (hb : 0 < b) (heven : n % 2 = 0) :
    n ≤ nearest a b ↔ 2 * (n * b) ≤ 2 * a + b := by
  have hdiv := Nat.div_add_mod a b
  have hrest := Nat.mod_lt a hb
  unfold nearest
  dsimp only
  generalize a / b = q at *
  generalize a % b = r at *
  subst hdiv
  rcases Nat.lt_trichotomy n (q + 1) with hlt | rfl | hgt
  · have hle : n * b ≤ b * q := by
      rw [Nat.mul_comm]
      exact Nat.mul_le_mul_left b (by omega)
    split_ifs <;> omega
  · have hnext : (q + 1) * b = b * q + b := by rw [Nat.add_mul, Nat.one_mul, Nat.mul_comm]
    split_ifs <;> omega
  · have hle : b * q + 2 * b ≤ n * b := by
      rw [Nat.mul_comm 2, ← Nat.mul_add, Nat.mul_comm n]
      exact Nat.mul_le_mul_left b (by omega)
    split_ifs <;> omega

variable {a d : Nat} (hd : 0 < d)
include hd

/-- With `n` for the exponent of half the last step. -/
theorem overflowUnits_le_unitsOf_iff {n : Nat} (hn : overflowExponent = 54 + n) :
    overflowUnits ≤ unitsOf a d ↔ (2 ^ 54 - 1) * (Nat.pow 2 n * d) ≤ a := by
  have hover : overflowUnits = 2 ^ 54 * Nat.pow 2 n := by
    unfold overflowUnits
    rw [hn, two_pow_add, Nat.pow_eq]
  have hstep : 2 ^ (n + 1) = 2 * Nat.pow 2 n := by rw [Nat.pow_eq, Nat.pow_succ']
  have hhalf : Nat.pow 2 (53 + n) = 2 ^ 53 * Nat.pow 2 n := two_pow_add 53 n
  have hpos : 0 < Nat.pow 2 n := two_pow_pos n
  rcases Nat.lt_or_ge (a / d) (2 ^ 53 * Nat.pow 2 n) with hlow | hlow
  · -- Below the last binade nothing is rounded past its beginning.
    have ha : a < 2 ^ 53 * (Nat.pow 2 n * d) := by
      rw [← Nat.mul_assoc]
      exact (Nat.div_lt_iff_lt_mul hd).1 hlow
    have hunits : unitsOf a d ≤ 2 ^ 53 * Nat.pow 2 n := by
      rw [← hhalf]
      refine unitsOf_le hd ?_
      rw [hhalf, Nat.mul_assoc]
      exact ha.le
    rw [hover]
    generalize Nat.pow 2 n * d = x at *
    omega
  rcases Nat.lt_or_ge (a / d) (2 ^ 54 * Nat.pow 2 n) with hhigh | hhigh
  · -- In the last binade, whose steps are twice `2 ^ n`.
    have hs : step (a / d) = 2 * Nat.pow 2 n := by
      rw [← hstep]
      exact step_of_between (by omega) (by omega)
    have hunits : unitsOf a d = nearest a (d * (2 * Nat.pow 2 n)) * (2 * Nat.pow 2 n) := by
      rw [unitsOf, hs]
    have hfactor : 2 ^ 54 * Nat.pow 2 n = 2 ^ 53 * (2 * Nat.pow 2 n) := by omega
    have hdouble : d * (2 * Nat.pow 2 n) = 2 * (Nat.pow 2 n * d) := by rw [Nat.mul_comm, Nat.mul_assoc]
    rw [hover, hunits, hfactor, Nat.mul_le_mul_right_iff (by omega),
      le_nearest_iff (Nat.mul_pos hd (by omega)) (by decide), hdouble]
    generalize Nat.pow 2 n * d = x
    omega
  · have ha : 2 ^ 54 * (Nat.pow 2 n * d) ≤ a := by
      rw [← Nat.mul_assoc]
      exact (Nat.le_div_iff_mul_le hd).1 hhigh
    have hunits : Nat.pow 2 (54 + n) ≤ unitsOf a d := by
      refine le_unitsOf hd ?_
      rw [two_pow_add, Nat.mul_assoc]
      exact ha
    rw [two_pow_add] at hunits
    refine iff_of_true (hover ▸ hunits) ?_
    generalize Nat.pow 2 n * d = x at *
    omega

theorem unitsOf_pos_iff : 0 < unitsOf a d ↔ d < 2 * a := by
  rcases Nat.lt_or_ge a d with hlt | hge
  · have hone : step 0 = 1 := step_of_lt (by decide)
    rw [unitsOf, Nat.div_eq_of_lt hlt, hone, Nat.mul_one, Nat.mul_one, nearest, Nat.div_eq_of_lt hlt,
      Nat.mod_eq_of_lt hlt]
    split_ifs <;> omega
  · have hunits : Nat.pow 2 0 ≤ unitsOf a d := le_unitsOf hd (by rwa [Nat.pow_eq, Nat.pow_zero, Nat.one_mul])
    rw [Nat.pow_eq, Nat.pow_zero] at hunits
    omega

end Binary64

/-! ## Thresholds -/

namespace Decimal

open Binary64

/-- The last step before infinity is 2^971, of which there are 53 binary digits. -/
theorem huge_eq : huge = (2 ^ 54 - 1) * (2 : ℚ) ^ (970 : ℤ) := by
  rw [huge, show 1024 = 54 + 970 from rfl, pow_add, sub_mul, one_mul, zpow_ofNat]

theorem tiny_eq : tiny = (2 : ℚ) ^ (-1075 : ℤ) := by
  rw [tiny, zpow_neg, one_div, zpow_ofNat]

theorem huge_pos : 0 < huge := by
  rw [huge_eq]
  exact mul_pos (by norm_num) (zpow_pos two_pos _)

theorem tiny_pos : 0 < tiny := by
  rw [tiny_eq]
  exact zpow_pos two_pos _

/-- A unit is twice as much as what is rounded to zero. -/
theorem tiny_mul : tiny * (2 * 2 ^ unitExponent) = 1 := by
  rw [tiny_eq, ← zpow_natCast, ← zpow_one_add₀ two_ne_zero, ← zpow_add₀ two_ne_zero]
  rfl

theorem tiny_lt_units_iff {units : Nat} : tiny < units / 2 ^ unitExponent ↔ 0 < units := by
  have hmul := tiny_mul
  have hunit : (0 : ℚ) < 2 ^ unitExponent := pow_pos two_pos _
  rw [lt_div_iff₀ hunit]
  generalize (2 : ℚ) ^ unitExponent = u at *
  constructor
  · intro h
    by_contra hzero
    rw [Nat.eq_zero_of_not_pos hzero, Nat.cast_zero] at h
    linarith
  · intro hpos
    have hone : (1 : ℚ) ≤ units := by exact_mod_cast hpos
    linarith

theorem tiny_lt_huge : tiny < huge := by
  rw [tiny_eq, huge_eq]
  calc (2 : ℚ) ^ (-1075 : ℤ) < (2 : ℚ) ^ (970 : ℤ) := zpow_lt_zpow_right₀ one_lt_two (by norm_num)
    _ ≤ (2 ^ 54 - 1) * (2 : ℚ) ^ (970 : ℤ) := le_mul_of_one_le_left (zpow_nonneg two_pos.le _) (by norm_num)

section Round

variable {n d : Nat} (hd : 0 < d)
include hd

/-- With `k` for the exponent of half the last step, whose power is too large to be worked out. -/
theorem overflowUnits_le_iff_of {k : Nat} (hk : overflowExponent = 54 + (k + unitExponent))
    (hhuge : huge = (2 ^ 54 - 1) * (2 : ℚ) ^ (k : ℤ)) :
    overflowUnits ≤ unitsOf (n * Nat.pow 2 unitExponent) d ↔ huge ≤ n / d := by
  have hfactor : (2 ^ 54 - 1) * (Nat.pow 2 (k + unitExponent) * d) =
      (2 ^ 54 - 1) * Nat.pow 2 k * d * Nat.pow 2 unitExponent := by
    rw [two_pow_add]
    ring
  have hcast : huge = (2 ^ 54 - 1 : Nat) * (Nat.pow 2 k : Nat) := by
    rw [hhuge, cast_pow_two]
    norm_num only
  rw [overflowUnits_le_unitsOf_iff hd hk, hfactor, Nat.mul_le_mul_right_iff (two_pow_pos _), hcast,
    le_div_iff₀ (Nat.cast_pos.2 hd), ← Nat.cast_mul, ← Nat.cast_mul, Nat.cast_le]

theorem overflowUnits_le_iff : overflowUnits ≤ unitsOf (n * Nat.pow 2 unitExponent) d ↔ huge ≤ n / d :=
  overflowUnits_le_iff_of hd (k := 970) (by decide) huge_eq

theorem unitsOf_pos_iff_tiny : 0 < unitsOf (n * Nat.pow 2 unitExponent) d ↔ tiny < n / d := by
  have htiny : tiny * (2 * Nat.pow 2 unitExponent : Nat) = 1 := by
    rw [Nat.cast_mul, cast_pow_two, zpow_natCast, Nat.cast_ofNat, tiny_mul]
  have hunit := two_pow_pos unitExponent
  rw [unitsOf_pos_iff hd]
  generalize Nat.pow 2 unitExponent = u at *
  have hu : (0 : ℚ) < (2 * u : Nat) := Nat.cast_pos.2 (by omega)
  rw [← mul_lt_mul_iff_left₀ hu, htiny, div_mul_eq_mul_div, one_lt_div₀ (Nat.cast_pos.2 hd), ← Nat.cast_mul,
    Nat.cast_lt, Nat.mul_left_comm]

/-- A fraction is rounded to infinity or to a finite number, which is zero or not. -/
theorem round_cases (negative : Bool) :
    (round negative n d = .infinite negative ∧ huge ≤ n / d) ∨
    ∃ units, round negative n d = .finite negative units ∧ (n / d : ℚ) < huge ∧
      (0 < units ↔ tiny < n / d) := by
  rw [round_eq]
  split
  next h => exact .inl ⟨rfl, (overflowUnits_le_iff hd).1 h⟩
  next h => exact .inr ⟨_, rfl, not_le.1 (mt (overflowUnits_le_iff hd).2 h), unitsOf_pos_iff_tiny hd⟩

end Round

/-- **What a decimal is rounded to**: infinity from `huge` on, and zero up to `tiny`. -/
theorem scaled_cases (negative : Bool) (significand : Nat) (e : Int) :
    (scaled negative significand e = .infinite negative ∧ huge ≤ significand * (10 : ℚ) ^ e) ∨
    ∃ units, scaled negative significand e = .finite negative units ∧
      significand * (10 : ℚ) ^ e < huge ∧ (0 < units ↔ tiny < significand * (10 : ℚ) ^ e) := by
  by_cases hsig : significand = 0
  · refine .inr ⟨0, by rw [scaled, if_pos hsig], ?_, ?_⟩
    · simpa [hsig] using huge_pos
    · simp [hsig, tiny_pos.le]
  by_cases hlarge : 400 < e
  · refine .inl ⟨by rw [scaled, if_neg hsig, if_pos hlarge], ?_⟩
    calc huge ≤ 2 ^ 1024 := sub_le_self _ (pow_nonneg two_pos.le _)
      _ = (2 : ℚ) ^ (1024 : ℤ) := (zpow_ofNat 2 1024).symm
      _ ≤ (2 : ℚ) ^ (1025 : ℤ) := zpow_le_zpow_right₀ one_le_two (by norm_num)
      _ ≤ significand * (10 : ℚ) ^ e := two_zpow_le_of_large hsig hlarge
  by_cases hsmall : e + significand.log2 < -1200
  · have hlt := lt_two_zpow_of_small hsmall
    rw [← tiny_eq] at hlt
    exact .inr ⟨0, by rw [scaled, if_neg hsig, if_neg hlarge, if_pos hsmall], hlt.trans tiny_lt_huge,
      iff_of_false (lt_irrefl 0) hlt.le.not_gt⟩
  · obtain ⟨n, d, hd, hvalue, hround⟩ := scaled_eq_round negative hsig hlarge hsmall
    rw [hround, ← hvalue]
    exact round_cases hd negative

end Decimal

end FlowScript
