import Mathlib.Algebra.Order.Field.Power
import Mathlib.Data.Rat.Lemmas
import Mathlib.Tactic.Linarith
import Mathlib.Tactic.Positivity
import Mathlib.Tactic.Ring
import WindowQuery.Binary64.Basic

/-!
# What magnitudes stand for

A magnitude is written `e · 2 ^ 52 + k`, where `k` has fifty-three bits or `e`
is zero, and stands for `k · 2 ^ (e - 1074)` (`value_binade`). The next
magnitude is further by one unit of the last place (`value_succ`), at the end of
a binade too, where `k` may be read as a power of two in either of two ways. So
the values grow with the magnitudes, and the distance between neighbours is
known from the value: it is at least the `2 ^ 53`rd part of it and, from the
least number with all its bits on, at most the `2 ^ 52`nd.
-/

namespace WindowQuery

namespace Binary64

/-- **The number that a magnitude stands for**, as if there were no infinity. -/
def value (m : ℕ) : ℚ := significand m * 2 ^ exponent m

/-- The unit of the last place: the distance to the next number. -/
def ulp (m : ℕ) : ℚ := 2 ^ exponent m

theorem ulp_pos (m : ℕ) : 0 < ulp m := zpow_pos (by norm_num) _

/-! ## Binades -/

theorem exponent_binade {e k : ℕ} (hk : k < 2 ^ 53) (h : e = 0 ∨ 2 ^ 52 ≤ k) :
    exponent (e * 2 ^ 52 + k) = e - 1074 := by
  unfold exponent
  show (if _ < 2 ^ 52 then (-1074 : ℤ) else ((_ / 2 ^ 52 : ℕ) : ℤ) - 1075) = _
  split <;> omega

theorem significand_binade {e k : ℕ} (hk : k < 2 ^ 53) (h : e = 0 ∨ 2 ^ 52 ≤ k) :
    significand (e * 2 ^ 52 + k) = k := by
  unfold significand
  show (if _ < 2 ^ 52 then _ else 2 ^ 52 + _ % 2 ^ 52) = _
  split <;> omega

theorem exists_binade (m : ℕ) :
    ∃ e k : ℕ, m = e * 2 ^ 52 + k ∧ k < 2 ^ 53 ∧ (e = 0 ∨ 2 ^ 52 ≤ k) :=
  ⟨m / 2 ^ 52 - 1, m - (m / 2 ^ 52 - 1) * 2 ^ 52, by omega, by omega, by omega⟩

/-- **The value in a binade**, the power of two that ends it included. -/
theorem value_binade {e k : ℕ} (hk : k ≤ 2 ^ 53) (h : e = 0 ∨ 2 ^ 52 ≤ k) :
    value (e * 2 ^ 52 + k) = k * 2 ^ ((e : ℤ) - 1074) := by
  rcases Nat.lt_or_eq_of_le hk with hlt | rfl
  · rw [value, significand_binade hlt h, exponent_binade hlt h]
  · -- the first number of the next binade but one, counted from zero
    have hnext : e * 2 ^ 52 + 2 ^ 53 = (e + 1) * 2 ^ 52 + 2 ^ 52 := by omega
    have hexponent : ((e + 1 : ℕ) : ℤ) - 1074 = 1 + ((e : ℤ) - 1074) := by omega
    rw [hnext, value, significand_binade (by norm_num) (Or.inr le_rfl),
      exponent_binade (by norm_num) (Or.inr le_rfl), hexponent, zpow_add₀ two_ne_zero, zpow_one]
    push_cast
    ring

/-- **The next number is a unit of the last place further.** -/
theorem value_succ (m : ℕ) : value (m + 1) = value m + ulp m := by
  obtain ⟨e, k, rfl, hk, h⟩ := exists_binade m
  have hsucc : e = 0 ∨ 2 ^ 52 ≤ k + 1 := h.imp_right fun h => Nat.le_succ_of_le h
  rw [Nat.add_assoc, value_binade hk hsucc, value_binade hk.le h, ulp, exponent_binade hk h]
  push_cast
  ring

theorem value_strictMono : StrictMono value :=
  strictMono_nat_of_lt_succ fun m => by
    rw [value_succ]
    exact lt_add_of_pos_right _ (ulp_pos m)

@[simp] theorem value_zero : value 0 = 0 := by
  show ((0 : ℕ) : ℚ) * _ = 0
  rw [Nat.cast_zero, zero_mul]

theorem value_nonneg (m : ℕ) : 0 ≤ value m := by
  rw [← value_zero]
  exact value_strictMono.monotone (Nat.zero_le m)

theorem value_pos {m : ℕ} (h : 0 < m) : 0 < value m := by
  rw [← value_zero]
  exact value_strictMono h

/-! ## Units of the last place -/

theorem ulp_mono : Monotone ulp := by
  refine monotone_nat_of_le_succ fun m => zpow_le_zpow_right₀ one_le_two ?_
  unfold exponent
  show (if _ < 2 ^ 52 then (-1074 : ℤ) else ((_ / 2 ^ 52 : ℕ) : ℤ) - 1075)
    ≤ if _ < 2 ^ 52 then (-1074 : ℤ) else ((_ / 2 ^ 52 : ℕ) : ℤ) - 1075
  split <;> split <;> omega

/-- **A significand has fifty-three bits**, so that the next number is at most `2 ^ 53`
units away from zero. -/
theorem value_succ_le (m : ℕ) : value (m + 1) ≤ 2 ^ 53 * ulp m := by
  obtain ⟨e, k, rfl, hk, h⟩ := exists_binade m
  have hsucc : e = 0 ∨ 2 ^ 52 ≤ k + 1 := h.imp_right fun h => Nat.le_succ_of_le h
  have hle : ((k + 1 : ℕ) : ℚ) ≤ 2 ^ 53 := by exact_mod_cast hk
  rw [Nat.add_assoc, value_binade hk hsucc, ulp, exponent_binade hk h]
  exact mul_le_mul_of_nonneg_right hle (zpow_nonneg two_pos.le _)

/-- From the least number with all its bits on it is at least `2 ^ 52` units. -/
theorem ulp_le_value {m : ℕ} (hm : 2 ^ 52 ≤ m) : 2 ^ 52 * ulp m ≤ value m := by
  obtain ⟨e, k, rfl, hk, h⟩ := exists_binade m
  have hle : (2 ^ 52 : ℚ) ≤ (k : ℕ) := by
    have : 2 ^ 52 ≤ k := by omega
    exact_mod_cast this
  rw [value_binade hk.le h, ulp, exponent_binade hk h]
  exact mul_le_mul_of_nonneg_right hle (zpow_nonneg two_pos.le _)

theorem le_ulp_binade {e k : ℕ} (h : e = 0 ∨ 2 ^ 52 ≤ k) :
    2 ^ ((e : ℤ) - 1074) ≤ ulp (e * 2 ^ 52 + k) := by
  rcases h with rfl | h
  · exact ulp_mono (Nat.zero_le _)
  · calc (2 : ℚ) ^ ((e : ℤ) - 1074) = ulp (e * 2 ^ 52 + 2 ^ 52) := by
          rw [ulp, exponent_binade (by norm_num) (Or.inr le_rfl)]
      _ ≤ ulp (e * 2 ^ 52 + k) := ulp_mono (Nat.add_le_add_left h _)

/-! ## Ratios -/

theorem scaled_eq (n : ℕ) (e : ℤ) :
    0 < (scaled n e).2 ∧ ((scaled n e).1 : ℚ) / (scaled n e).2 = n * 2 ^ e := by
  unfold scaled
  split
  · next h =>
    obtain ⟨k, rfl⟩ := Int.eq_ofNat_of_zero_le h
    refine ⟨Nat.one_pos, ?_⟩
    show ((n * 2 ^ k : ℕ) : ℚ) / (1 : ℕ) = _
    rw [Nat.cast_one, div_one, zpow_natCast]
    push_cast
    rfl
  · next h =>
    obtain ⟨k, rfl⟩ := Int.exists_eq_neg_ofNat (Int.le_of_lt (Int.not_le.1 h))
    rw [Int.neg_neg, Int.toNat_natCast]
    refine ⟨Nat.pow_pos Nat.two_pos, ?_⟩
    show (n : ℚ) / (2 ^ k : ℕ) = _
    rw [zpow_neg, zpow_natCast, div_eq_mul_inv]
    push_cast
    rfl

/-- A ratio over a power, where no factor is turned into a fraction. -/
theorem over_eq {b : ℕ} (hb : 0 < b) (num : ℕ) {den : ℕ} (hden : 0 < den) (e : ℤ) {q : ℕ × ℕ}
    (hq : (if 0 ≤ e then (num, den * b ^ e.toNat) else (num * b ^ (-e).toNat, den)) = q) :
    0 < q.2 ∧ (q.1 : ℚ) / q.2 = num / den / b ^ e := by
  subst hq
  split
  · next h =>
    obtain ⟨k, rfl⟩ := Int.eq_ofNat_of_zero_le h
    refine ⟨Nat.mul_pos hden (Nat.pow_pos hb), ?_⟩
    show (num : ℚ) / (den * b ^ k : ℕ) = _
    rw [zpow_natCast, div_div]
    push_cast
    rfl
  · next h =>
    obtain ⟨k, rfl⟩ := Int.exists_eq_neg_ofNat (Int.le_of_lt (Int.not_le.1 h))
    rw [Int.neg_neg, Int.toNat_natCast]
    refine ⟨hden, ?_⟩
    show ((num * b ^ k : ℕ) : ℚ) / den = _
    rw [zpow_neg, zpow_natCast, div_inv_eq_mul, div_mul_eq_mul_div]
    push_cast
    rfl

theorem pos_of_div_pos {num den : ℕ} (h : 0 < (num : ℚ) / den) : 0 < num := by
  by_contra hzero
  rw [Nat.eq_zero_of_not_pos hzero, Nat.cast_zero, zero_div] at h
  exact lt_irrefl 0 h

/-- **The ratio of a number is its value.** -/
theorem ratio_eq (x : Binary64) :
    0 < x.ratio.2 ∧ (x.ratio.1 : ℚ) / x.ratio.2 = value x.magnitude :=
  scaled_eq _ _

end Binary64

end WindowQuery
