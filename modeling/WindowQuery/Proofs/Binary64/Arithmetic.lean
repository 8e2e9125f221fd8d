import WindowQuery.Proofs.Binary64.Nearest

/-!
# Arithmetic, rounded once

A result is the number nearest to what the numbers that it is made from stand
for together; it is finite if that is no greater than some finite number. Natural
numbers of fifty-three bits are numbers themselves.
-/

namespace WindowQuery

namespace Binary64

variable {m : ℕ}

/-- **A ratio is rounded to the nearest number** if that is finite. -/
theorem isNearest_ofRatio (negative : Bool) (num : ℕ) {den : ℕ} (hden : 0 < den)
    (hm : m < infinityMagnitude) (hle : (num : ℚ) / den ≤ value m) :
    IsNearest (num / den) (ofRatio negative num den).magnitude ∧
      (ofRatio negative num den).magnitude ≤ m := by
  obtain ⟨m', hm', hnearest⟩ := exists_nearest num hden
  have hle' : m' ≤ m := hm'.le (isNearest_value m) hle
  have hmagnitude : (ofRatio negative num den).magnitude = m' := by
    rw [ofRatio, ofMagnitude, hnearest]
    dsimp only
    rw [min_eq_right (Nat.le_trans hle' hm.le), min_eq_left (Nat.le_trans hle' hm.le)]
  rw [hmagnitude]
  exact ⟨hm', hle'⟩

/-- **A natural number of fifty-three bits is a number**: shifted up to that width
it is a significand, and the shift is the exponent. -/
theorem exists_value_eq {n : ℕ} (h : n < 2 ^ 53) : ∃ m < infinityMagnitude, value m = n := by
  rcases Nat.eq_zero_or_pos n with rfl | hpos
  · exact ⟨0, by decide, by rw [value_zero, Nat.cast_zero]⟩
  have hlow : 2 ^ n.log2 ≤ n := Nat.log2_self_le (Nat.ne_of_gt hpos)
  have hhigh : n < 2 ^ (n.log2 + 1) := Nat.lt_log2_self
  have hlog : n.log2 < 53 :=
    (Nat.pow_lt_pow_iff_right (by decide)).1 (Nat.lt_of_le_of_lt hlow h)
  -- shifted up to fifty-three bits
  obtain ⟨j, hj⟩ := Nat.exists_eq_add_of_le (Nat.le_of_lt_succ hlog)
  have hleast : 2 ^ 52 ≤ n * 2 ^ j :=
    calc 2 ^ 52 = 2 ^ n.log2 * 2 ^ j := by rw [← pow_add, ← hj]
      _ ≤ n * 2 ^ j := Nat.mul_le_mul_right _ hlow
  have hmost : n * 2 ^ j < 2 ^ 53 :=
    calc n * 2 ^ j < 2 ^ (n.log2 + 1) * 2 ^ j :=
          Nat.mul_lt_mul_of_pos_right hhigh (Nat.pow_pos Nat.two_pos)
      _ = 2 ^ 53 := by rw [← pow_add, show n.log2 + 1 + j = 53 by omega]
  have hinfinity : infinityMagnitude = 2047 * 2 ^ 52 := rfl
  refine ⟨(1074 - j) * 2 ^ 52 + n * 2 ^ j, by omega, ?_⟩
  rw [value_binade hmost.le (Or.inr hleast), show ((1074 - j : ℕ) : ℤ) - 1074 = -(j : ℤ) by omega,
    zpow_neg, zpow_natCast]
  push_cast
  rw [mul_assoc, mul_inv_cancel₀ (by positivity), mul_one]

/-- **Such a number is rounded to itself.** -/
theorem value_ofNat {n : ℕ} (h : n < 2 ^ 53) : value (ofNat n).magnitude = n := by
  obtain ⟨m, hm, hvalue⟩ := exists_value_eq h
  have hratio : (n : ℚ) / (1 : ℕ) = value m := by rw [Nat.cast_one, div_one, hvalue]
  obtain ⟨hnearest, -⟩ := isNearest_ofRatio false n Nat.one_pos hm hratio.le
  rw [hratio] at hnearest
  have heq : (ofNat n).magnitude = m := hnearest.unique (isNearest_value m)
  rw [heq, hvalue]

theorem negative_add (x y : Binary64) : (add x y).negative = false := rfl

/-- **A sum is rounded once.** -/
theorem isNearest_add (x y : Binary64) (hm : m < infinityMagnitude)
    (hle : value x.magnitude + value y.magnitude ≤ value m) :
    IsNearest (value x.magnitude + value y.magnitude) (add x y).magnitude ∧
      (add x y).magnitude ≤ m := by
  obtain ⟨hb, hx⟩ := ratio_eq x
  obtain ⟨hd, hy⟩ := ratio_eq y
  have hbq : (x.ratio.2 : ℚ) ≠ 0 := Nat.cast_ne_zero.2 (Nat.ne_of_gt hb)
  have hdq : (y.ratio.2 : ℚ) ≠ 0 := Nat.cast_ne_zero.2 (Nat.ne_of_gt hd)
  have hratio : ((x.ratio.1 * y.ratio.2 + y.ratio.1 * x.ratio.2 : ℕ) : ℚ)
      / (x.ratio.2 * y.ratio.2 : ℕ) = value x.magnitude + value y.magnitude := by
    rw [← hx, ← hy, div_add_div _ _ hbq hdq, mul_comm (x.ratio.2 : ℚ) y.ratio.1]
    push_cast
    rfl
  rw [← hratio] at hle ⊢
  exact isNearest_ofRatio false _ (Nat.mul_pos hb hd) hm hle

/-- **A quotient is rounded once.** -/
theorem isNearest_div (x y : Binary64) (hy : 0 < value y.magnitude) (hm : m < infinityMagnitude)
    (hle : value x.magnitude / value y.magnitude ≤ value m) :
    IsNearest (value x.magnitude / value y.magnitude) (div x y).magnitude ∧
      (div x y).magnitude ≤ m := by
  obtain ⟨hb, hx⟩ := ratio_eq x
  obtain ⟨hd, hy'⟩ := ratio_eq y
  have hc : 0 < y.ratio.1 := pos_of_div_pos (hy'.symm ▸ hy)
  have hratio : ((x.ratio.1 * y.ratio.2 : ℕ) : ℚ) / (x.ratio.2 * y.ratio.1 : ℕ)
      = value x.magnitude / value y.magnitude := by
    rw [← hx, ← hy', div_div_div_eq]
    push_cast
    rfl
  rw [← hratio] at hle ⊢
  exact isNearest_ofRatio _ _ (Nat.mul_pos hb hc) hm hle

/-! ## Parts of one -/

/-- **A part of one**, of two natural numbers. -/
theorem isNearest_div_ofNat {a b : ℕ} (hb : 0 < b) (hb' : b < 2 ^ 53) (hab : a ≤ b) :
    IsNearest (a / b) (div (ofNat a) (ofNat b)).magnitude ∧
      value (div (ofNat a) (ofNat b)).magnitude ≤ 1 := by
  have hbq : (0 : ℚ) < b := Nat.cast_pos.2 hb
  have hvalue : value (ofNat a).magnitude / value (ofNat b).magnitude = a / b := by
    rw [value_ofNat (Nat.lt_of_le_of_lt hab hb'), value_ofNat hb']
  obtain ⟨one, hone, hone'⟩ := exists_value_eq (n := 1) (by norm_num)
  rw [Nat.cast_one] at hone'
  have hle : (a : ℚ) / b ≤ value one := by
    rw [hone', div_le_one hbq]
    exact_mod_cast hab
  obtain ⟨hnearest, hmost⟩ :=
    isNearest_div (ofNat a) (ofNat b) (by rwa [value_ofNat hb']) hone (hvalue.symm ▸ hle)
  rw [hvalue] at hnearest
  exact ⟨hnearest, hone' ▸ value_strictMono.monotone hmost⟩

/-- **A natural number and a part of one.** -/
theorem isNearest_ofNat_add {a : ℕ} {x : Binary64} (ha : a + 1 < 2 ^ 53)
    (hx : value x.magnitude ≤ 1) :
    IsNearest (a + value x.magnitude) (add (ofNat a) x).magnitude ∧
      (add (ofNat a) x).magnitude < infinityMagnitude := by
  obtain ⟨top, htop, htop'⟩ := exists_value_eq ha
  have hvalue := value_ofNat (Nat.lt_of_succ_lt ha)
  have hle : value (ofNat a).magnitude + value x.magnitude ≤ value top := by
    rw [hvalue, htop']
    push_cast
    linarith
  obtain ⟨hnearest, hmost⟩ := isNearest_add (ofNat a) x htop hle
  rw [hvalue] at hnearest
  exact ⟨hnearest, Nat.lt_of_le_of_lt hmost htop⟩

/-- What is no less than a tenth of a billionth is rounded to a number of fifty-three bits. -/
theorem IsNearest.normal {r : ℚ} (h : IsNearest r m) (hr : 1 / 10 ^ 10 ≤ r) : 2 ^ 52 < m := by
  refine (isNearest_value (2 ^ 52 + 1)).le h (le_trans ?_ hr)
  have hvalue : value (2 ^ 52 + 1) = value (0 * 2 ^ 52 + (2 ^ 52 + 1)) := rfl
  rw [hvalue, value_binade (by norm_num) (Or.inl rfl)]
  calc ((2 ^ 52 + 1 : ℕ) : ℚ) * 2 ^ (((0 : ℕ) : ℤ) - 1074)
      ≤ 2 ^ (53 : ℤ) * 2 ^ (((0 : ℕ) : ℤ) - 1074) :=
        mul_le_mul_of_nonneg_right (by norm_num) (zpow_nonneg two_pos.le _)
    _ = 2 ^ (-1021 : ℤ) := by
        rw [← zpow_add₀ two_ne_zero]
        rfl
    _ ≤ 2 ^ (-34 : ℤ) := zpow_le_zpow_right₀ one_le_two (by norm_num)
    _ ≤ 1 / 10 ^ 10 := by norm_num

end Binary64

end WindowQuery
