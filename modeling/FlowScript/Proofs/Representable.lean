/-
The numbers of documents that were read. Rounding gives numbers of the format
only (`isUnits_of_round`), and dividing by powers of ten does not leave its
range, so that a token is read as an integer or as a finite number of the
format. Every document that was read is therefore one that literals denote
(`literal_of_read`).
-/
import FlowScript.Proofs.Denotation
import FlowScript.Proofs.Settled

namespace FlowScript

namespace Binary64

/-! ## Rounding -/

theorem div_le_nearest (a b : Nat) : a / b ≤ nearest a b := by
  unfold nearest
  dsimp only
  split_ifs <;> omega

theorem nearest_le {a b q : Nat} (hb : 0 < b) (h : a ≤ q * b) : nearest a b ≤ q := by
  have hdiv := Nat.div_add_mod a b
  have hcomm := Nat.mul_comm q b
  have hfloor : a / b ≤ q := Nat.div_le_of_le_mul (by omega)
  rcases Nat.eq_or_lt_of_le hfloor with heq | hlt
  · -- There is no rest then, and nothing is rounded up.
    have hrest : a % b = 0 := by
      rw [heq] at hdiv
      omega
    rw [nearest]
    simp [hrest, hb, heq]
  · unfold nearest
    dsimp only
    split_ifs <;> omega

/-- The units that `a / d` is rounded to. -/
def unitsOf (a d : Nat) : Nat := nearest a (d * step (a / d)) * step (a / d)

theorem round_eq (negative : Bool) (n d : Nat) :
    round negative n d =
      if overflowUnits ≤ unitsOf (n * Nat.pow 2 unitExponent) d then .infinite negative
      else .finite negative (unitsOf (n * Nat.pow 2 unitExponent) d) := rfl

theorem two_pow_pos (n : Nat) : 0 < Nat.pow 2 n := Nat.two_pow_pos n

theorem step_pos (units : Nat) : 0 < step units := two_pow_pos _

theorem two_pow_add (m n : Nat) : Nat.pow 2 (m + n) = Nat.pow 2 m * Nat.pow 2 n := by
  rw [Nat.pow_eq, Nat.pow_eq, Nat.pow_eq, Nat.pow_add]

theorem two_pow_lt_overflowUnits {m : Nat} (hm : m < overflowExponent) : Nat.pow 2 m < overflowUnits := by
  unfold overflowUnits
  generalize overflowExponent = n at *
  exact Nat.pow_lt_pow_right (by omega) hm

/-- Fifty-three digits in any step are a whole number of steps. -/
theorem mod_step_eq_zero {k n : Nat} (hlow : 2 ^ 52 ≤ k) (hhigh : k ≤ 2 ^ 53) :
    k * 2 ^ n % step (k * 2 ^ n) = 0 := by
  rcases Nat.eq_or_lt_of_le hhigh with rfl | hlt
  · -- A carry into the next digit doubles the step.
    have hcarry : 2 ^ 53 * 2 ^ n = 2 ^ 52 * 2 ^ (n + 1) := by
      rw [Nat.pow_succ' (n := n), ← Nat.mul_assoc]
      rfl
    have hpos := Nat.two_pow_pos (n + 1)
    rw [hcarry, step_of_between (n := n + 1) le_rfl (by omega), Nat.mul_mod_left]
  · rw [step_of_between (Nat.mul_le_mul_right _ hlow) (Nat.mul_lt_mul_of_pos_right hlt (Nat.two_pow_pos n)),
      Nat.mul_mod_left]

section UnitsOf

variable {a d : Nat} (hd : 0 < d)
include hd

theorem nearest_between :
    a / d / step (a / d) ≤ nearest a (d * step (a / d)) ∧
      nearest a (d * step (a / d)) ≤ a / d / step (a / d) + 1 := by
  have hpos : 0 < d * step (a / d) := Nat.mul_pos hd (step_pos _)
  have hfloor : a / (d * step (a / d)) = a / d / step (a / d) := (Nat.div_div_eq_div_mul a d _).symm
  refine ⟨hfloor ▸ div_le_nearest a _, nearest_le hpos ?_⟩
  rw [← hfloor]
  exact (Nat.lt_mul_of_div_lt (Nat.lt_succ_self _) hpos).le

theorem unitsOf_mod_step : unitsOf a d % step (unitsOf a d) = 0 := by
  obtain ⟨hlow, hhigh⟩ := nearest_between (a := a) hd
  unfold unitsOf
  generalize nearest a (d * step (a / d)) = k at *
  generalize a / d = q at *
  rcases Nat.lt_or_ge q (2 ^ 53) with hsmall | hlarge
  · rw [step_of_lt hsmall, Nat.div_one] at hlow hhigh
    rw [step_of_lt hsmall, Nat.mul_one]
    rcases Nat.lt_or_ge k (2 ^ 53) with hk | hk
    · rw [step_of_lt hk, Nat.mod_one]
    · have hcarry := mod_step_eq_zero (k := k) (n := 0) (by omega) (by omega)
      rwa [Nat.pow_zero, Nat.mul_one] at hcarry
  · rcases step_cases (show 0 < q by omega) with hlt | ⟨n, hs, hmin, hmax⟩
    · omega
    · rw [hs] at hlow hhigh ⊢
      have hpos := Nat.two_pow_pos (n + 1)
      have hmin' : 2 ^ 52 ≤ q / 2 ^ (n + 1) := (Nat.le_div_iff_mul_le hpos).2 hmin
      have hmax' : q / 2 ^ (n + 1) < 2 ^ 53 := (Nat.div_lt_iff_lt_mul hpos).2 hmax
      exact mod_step_eq_zero (by omega) (by omega)

/-- Rounding up does not pass a power of two. -/
theorem unitsOf_le {m : Nat} (h : a ≤ Nat.pow 2 m * d) : unitsOf a d ≤ Nat.pow 2 m := by
  rw [Nat.pow_eq] at h ⊢
  have hfloor : a / d ≤ 2 ^ m := Nat.div_le_of_le_mul (by rwa [Nat.mul_comm])
  have hlog : (a / d).log2 - 52 ≤ m := by
    rcases Nat.eq_zero_or_pos (a / d) with hzero | hpos
    · simp [hzero]
    · have := (Nat.pow_le_pow_iff_right (by omega)).1 ((Nat.log2_self_le hpos.ne').trans hfloor)
      omega
  have hsplit : 2 ^ m = 2 ^ (m - ((a / d).log2 - 52)) * step (a / d) := by
    rw [step, Nat.pow_eq, ← Nat.pow_add, Nat.sub_add_cancel hlog]
  have hnearest : nearest a (d * step (a / d)) ≤ 2 ^ (m - ((a / d).log2 - 52)) := by
    refine nearest_le (Nat.mul_pos hd (step_pos _)) ?_
    calc a ≤ 2 ^ m * d := h
      _ = 2 ^ (m - ((a / d).log2 - 52)) * (d * step (a / d)) := by
        rw [Nat.mul_comm d, ← Nat.mul_assoc, ← hsplit]
  rw [unitsOf, hsplit]
  exact Nat.mul_le_mul_right _ hnearest

/-- Nor does rounding down. -/
theorem le_unitsOf {m : Nat} (h : Nat.pow 2 m * d ≤ a) : Nat.pow 2 m ≤ unitsOf a d := by
  rw [Nat.pow_eq] at h ⊢
  have hfloor : 2 ^ m ≤ a / d := (Nat.le_div_iff_mul_le hd).2 h
  have hpos : a / d ≠ 0 := by
    have := Nat.two_pow_pos m
    omega
  have hsplit : 2 ^ (a / d).log2 = 2 ^ ((a / d).log2 - ((a / d).log2 - 52)) * step (a / d) := by
    rw [step, Nat.pow_eq, ← Nat.pow_add, Nat.sub_add_cancel (Nat.sub_le _ _)]
  calc 2 ^ m ≤ 2 ^ (a / d).log2 := Nat.pow_le_pow_right (by omega) ((Nat.le_log2 hpos).2 hfloor)
    _ = 2 ^ ((a / d).log2 - ((a / d).log2 - 52)) * step (a / d) := hsplit
    _ ≤ nearest a (d * step (a / d)) * step (a / d) := by
      refine Nat.mul_le_mul_right _ (Nat.le_trans ?_ (nearest_between hd).1)
      rw [Nat.le_div_iff_mul_le (step_pos _), ← hsplit]
      exact Nat.log2_self_le hpos

end UnitsOf

/-- **Rounding gives numbers of the format.** -/
theorem isUnits_of_round {negative s : Bool} {n d units : Nat} (hd : 0 < d)
    (h : round negative n d = .finite s units) : IsUnits units := by
  rw [round_eq] at h
  split at h
  · cases h
  next hfinite =>
    cases h
    exact ⟨unitsOf_mod_step hd, Nat.not_le.1 hfinite⟩

/-! ## Numbers in range -/

/-- A finite number of the format, of at most `2 ^ m` units. -/
def Within (m : Nat) (x : Binary64) : Prop :=
  ∃ negative units, x = .finite negative units ∧ IsUnits units ∧ units ≤ Nat.pow 2 m

/-- What is at most a power of two in range is rounded to a finite number. -/
theorem round_of_le {m n d : Nat} (negative : Bool) (hm : m < overflowExponent) (hd : 0 < d)
    (h : n * Nat.pow 2 unitExponent ≤ Nat.pow 2 m * d) :
    round negative n d = .finite negative (unitsOf (n * Nat.pow 2 unitExponent) d) := by
  have hfinite : ¬ overflowUnits ≤ unitsOf (n * Nat.pow 2 unitExponent) d :=
    Nat.not_le.2 ((unitsOf_le hd h).trans_lt (two_pow_lt_overflowUnits hm))
  rw [round_eq, if_neg hfinite]

theorem within_round {m n d : Nat} (negative : Bool) (hm : m < overflowExponent) (hd : 0 < d)
    (h : n * Nat.pow 2 unitExponent ≤ Nat.pow 2 m * d) : Within m (round negative n d) := by
  have hround := round_of_le negative hm hd h
  exact ⟨negative, _, hround, isUnits_of_round hd hround, unitsOf_le hd h⟩

/-- Dividing by one or more does not make a number larger. -/
theorem Within.div {m : Nat} {x y : Binary64} (hx : Within m x) (hm : m < overflowExponent)
    (hnan : y ≠ .nan) (hone : ∀ s b, y = .finite s b → Nat.pow 2 unitExponent ≤ b) :
    Within m (x.div y) := by
  obtain ⟨s, a, rfl, -, ha⟩ := hx
  cases y with
  | nan => exact absurd rfl hnan
  | infinite t => exact ⟨_, 0, rfl, ⟨Nat.zero_mod _, overflowUnits_pos⟩, Nat.zero_le _⟩
  | finite t b =>
    have hb := hone t b rfl
    have hpos : 0 < b := Nat.lt_of_lt_of_le (two_pow_pos unitExponent) hb
    simp only [Binary64.div, hpos.ne', if_false]
    exact within_round _ hm hpos (Nat.mul_le_mul ha hb)

end Binary64

namespace Json

namespace Number

open Binary64

/-! ## Tokens that were read -/

theorem appendDigits_lt {significand : Nat} (h : significand < wordBound) (ds : List Char) :
    (appendDigits significand ds).1 < wordBound := by
  induction ds generalizing significand with
  | nil => exact h
  | cons d ds ih =>
    rw [appendDigits]
    dsimp only
    split
    next hnext => exact ih hnext
    next => exact h

theorem power_ne_nan (n : Nat) : power n ≠ .nan := by
  rw [power, ofNat, round_eq]
  split <;> rintro ⟨⟩

theorem one_le_power {n : Nat} {s : Bool} {units : Nat} (h : power n = .finite s units) :
    Nat.pow 2 unitExponent ≤ units := by
  rw [power, ofNat, round_eq] at h
  split at h
  · cases h
  · cases h
    refine le_unitsOf Nat.one_pos ?_
    rw [Nat.mul_one, Nat.mul_comm]
    exact Nat.le_mul_of_pos_right _ (Nat.pow_pos (by omega))

theorem within_divideByPower {m : Nat} (hm : m < overflowExponent) {x : Binary64} (hx : Within m x) (n : Nat) :
    Within m (divideByPower x n) := by
  fun_induction divideByPower x n with
  | case1 x n hn => exact hx.div hm (power_ne_nan n) fun _ _ => one_le_power
  | case2 => exact hx
  | case3 x n hn hzero ih => exact ih (hx.div hm (power_ne_nan 308) fun _ _ => one_le_power)

theorem representable_of_within {m : Nat} {x : Binary64} (h : Within m x) : (Number.real x).Representable := by
  obtain ⟨s, units, rfl, hunits, -⟩ := h
  exact hunits

/-- Integers of 64 bits are far below where numbers end. -/
theorem mul_units_le {k : Nat} (h : k ≤ wordBound) :
    k * Nat.pow 2 unitExponent ≤ Nat.pow 2 (64 + unitExponent) * 1 := by
  have hword : wordBound = Nat.pow 2 64 := rfl
  rw [Nat.mul_one, two_pow_add, ← hword]
  exact Nat.mul_le_mul_right _ h

/-- A significand is an integer of 64 bits, so that it can be divided as often as one likes. -/
theorem within_ofNat {significand : Nat} (h : significand < wordBound) :
    Within (64 + unitExponent) (Binary64.ofNat significand) := by
  unfold Binary64.ofNat
  exact within_round false (by decide) Nat.one_pos (mul_units_le h.le)

theorem representable_mul {x y : Binary64} (h : (x.mul y).isFinite = true) :
    (Number.real (x.mul y)).Representable := by
  generalize hproduct : x.mul y = z at *
  cases z with
  | nan | infinite => cases h
  | finite s units =>
    unfold Binary64.mul at hproduct
    split at hproduct
    · exact isUnits_of_round (two_pow_pos _) hproduct
    -- With an infinite factor the product is not finite.
    all_goals first | cases hproduct | (split at hproduct <;> cases hproduct)

theorem representable_scale {significand : Nat} {e : Int} {x : Binary64} (hs : significand < wordBound)
    (h : scale significand e = some x) : (Number.real x).Representable := by
  have hwithin := within_ofNat hs
  unfold scale at h
  dsimp only at h
  generalize Binary64.ofNat significand = y at hwithin h
  split_ifs at h with hneg hlarge hzero hfinite
  · cases h
    exact representable_of_within (within_divideByPower (by decide) hwithin _)
  · cases h
    exact representable_of_within hwithin
  · cases h
    exact representable_mul hfinite

theorem representable_withSign {x : Binary64} (h : (Number.real x).Representable) (negative : Bool) :
    (Number.real (x.withSign negative)).Representable := by
  cases x with
  | nan | infinite => cases h
  | finite => exact h

theorem representable_real? {p : Parts} {x : Binary64} (h : p.real? = some x) : (Number.real x).Representable := by
  unfold Parts.real? at h
  dsimp only at h
  obtain ⟨magnitude, hmagnitude, rfl⟩ := Option.map_eq_some_iff.1 h
  refine representable_withSign ?_ p.negative
  split at hmagnitude
  · split at hmagnitude
    · cases hmagnitude
      exact ⟨Nat.zero_mod _, overflowUnits_pos⟩
    · cases hmagnitude
  · exact representable_scale (appendDigits_lt (appendDigits_lt (by decide) _) _) hmagnitude

/-- **A token is read as a number of the format**, if it is read. -/
theorem representable_ofToken {cs : List Char} {n : Number} (h : ofToken cs = some n) : n.Representable := by
  unfold ofToken at h
  dsimp only at h
  split_ifs at h
  · cases h
    trivial
  · cases h
    trivial
  · obtain ⟨x, hx, rfl⟩ := Option.map_eq_some_iff.1 h
    exact representable_real? hx

end Number

/-! ## Documents that were read -/

theorem mem_numbersOfItems {items : List Json} {n : Number} (h : n ∈ Tree.numbersOfItems items) :
    ∃ t ∈ items, n ∈ t.numbers := by
  induction items with
  | nil => cases h
  | cons t ts ih =>
    rcases List.mem_append.1 h with h | h
    · exact ⟨t, List.mem_cons_self, h⟩
    · obtain ⟨u, hu, hn⟩ := ih h
      exact ⟨u, List.mem_cons_of_mem _ hu, hn⟩

theorem mem_numbersOfMembers {members : List (String × Json)} {n : Number}
    (h : n ∈ Tree.numbersOfMembers members) : ∃ p ∈ members, n ∈ p.2.numbers := by
  induction members with
  | nil => cases h
  | cons p ms ih =>
    rcases List.mem_append.1 h with h | h
    · exact ⟨p, List.mem_cons_self, h⟩
    · obtain ⟨q, hq, hn⟩ := ih h
      exact ⟨q, List.mem_cons_of_mem _ hq, hn⟩

theorem Settled.representable {t : Json} (h : Settled t) : Representable t := by
  induction h with
  | null | bool | str => exact nofun
  | num h =>
    intro n hn
    rw [List.mem_singleton.1 hn]
    exact Number.representable_ofToken h
  | arr _ ih =>
    intro n hn
    obtain ⟨t, ht, hn⟩ := mem_numbersOfItems hn
    exact ih t ht n hn
  | obj _ _ ih =>
    intro n hn
    obtain ⟨p, hp, hn⟩ := mem_numbersOfMembers hn
    exact ih p hp n hn

/-- **Documents that were read have numbers of the format.** -/
theorem representable_of_read {s : String} {t : Json} (h : Json.read s = some t) : Representable t :=
  (settled_of_read h).representable

/-- Whatever was read is written so that it can be read back, for both targets. -/
theorem literal_of_read {s : String} {t : Json} (h : Json.read s = some t) (target : Target) {depth : Nat}
    (hdepth : t.height ≤ depth) :
    target.dialect.readValue depth (target.literal t).toList = some (tokens t, []) :=
  readValue_literal (representable_of_read h) target hdepth

end Json

end FlowScript
