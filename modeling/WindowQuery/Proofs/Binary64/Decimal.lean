import WindowQuery.Binary64.Decimal
import WindowQuery.Proofs.Binary64.Nearest
import WindowQuery.Proofs.Text.Numeral

/-!
# Decimals that stand for binary numbers

A decimal is read as the number nearest to it (`magnitudeOfDecimal_eq_iff`). The
reader does not round what is out of range by the position of its point; such a
decimal is beyond the largest number, or so close to zero that zero is the
nearest. The position of the point says in which decade a ratio lies
(`pointOf_spec`).
-/

namespace WindowQuery

namespace Binary64

variable {r : ℚ} {m : ℕ}

/-! ## The largest and the least -/

theorem value_infinityMagnitude : value infinityMagnitude = 2 ^ 1024 := by
  have h : infinityMagnitude = 2046 * 2 ^ 52 + 2 ^ 52 := by decide
  rw [h, value_binade (by norm_num) (Or.inr le_rfl), Nat.cast_pow, Nat.cast_ofNat,
    ← zpow_natCast, ← zpow_natCast, ← zpow_add₀ two_ne_zero]
  rfl

/-- The powers of ten that bound the powers of two at both ends. -/
theorem two_pow_le_ten_pow : (2 : ℚ) ^ 1023 ≤ 10 ^ 308 :=
  calc (2 : ℚ) ^ 1023 = (2 ^ 93) ^ 11 := by rw [← pow_mul]
    _ ≤ (10 ^ 28) ^ 11 := pow_le_pow_left₀ (by positivity) (by norm_num) 11
    _ = 10 ^ 308 := by rw [← pow_mul]

/-- **Nothing finite is nearest** to a power of ten beyond the numbers. -/
theorem IsNearest.lt_ten_pow (h : IsNearest r m) (hm : m < infinityMagnitude) : r < 10 ^ 309 := by
  by_contra hle
  have hinf : value infinityMagnitude ≤ r := by
    calc value infinityMagnitude = 2 ^ 1023 * 2 := by rw [value_infinityMagnitude, ← pow_succ]
      _ ≤ 10 ^ 308 * 10 :=
          mul_le_mul two_pow_le_ten_pow (by norm_num) zero_le_two (by positivity)
      _ = 10 ^ 309 := by rw [← pow_succ]
      _ ≤ r := not_lt.1 hle
  exact absurd ((isNearest_value infinityMagnitude).le h hinf) (Nat.not_le.2 hm)

/-- **Zero is nearest** to what is below a power of ten before the numbers. -/
theorem isNearest_zero_of_lt (h : r < 10 ^ (-324 : ℤ)) : IsNearest r 0 := by
  have hten : (10 : ℚ) ^ (-324 : ℤ) < 2 ^ (-1075 : ℤ) := by
    rw [zpow_neg, zpow_neg]
    refine inv_strictAnti₀ (zpow_pos two_pos _) ?_
    calc (2 : ℚ) ^ (1075 : ℤ) = 2 ^ 1023 * 2 ^ 52 := by rw [← pow_add]; rfl
      _ < 10 ^ 308 * 10 ^ 16 :=
          mul_lt_mul' two_pow_le_ten_pow (by norm_num) (by positivity) (by positivity)
      _ = 10 ^ (324 : ℤ) := by rw [← pow_add]; rfl
  have hhalf : (2 : ℚ) ^ (-1074 : ℤ) = 2 * 2 ^ (-1075 : ℤ) := by
    rw [← zpow_one_add₀ two_ne_zero]
    rfl
  refine isNearest_of_lt (fun l hl => absurd hl (Nat.succ_ne_zero l)) ?_
  rw [value_succ, value_zero, zero_add, zero_add]
  calc 2 * r < 2 * 2 ^ (-1075 : ℤ) := by linarith
    _ = ulp 0 := hhalf.symm

/-! ## Reading a decimal -/

/-- A number has as many digits as the powers of ten say. -/
theorem decimalLength_spec {n : ℕ} (h : 0 < n) :
    10 ^ (decimalLength n - 1) ≤ n ∧ n < 10 ^ decimalLength n ∧ 0 < decimalLength n := by
  have hpos : 0 < decimalLength n := Nat.length_toDigits_pos
  refine ⟨?_, (Nat.length_toDigits_le_iff (by decide) hpos).1 le_rfl, hpos⟩
  rcases Nat.eq_zero_or_pos (decimalLength n - 1) with hone | hmore
  · rw [hone]
    exact h
  · by_contra hlt
    have hle := (Nat.length_toDigits_le_iff (by decide) hmore).2 (Nat.not_le.1 hlt)
    have : decimalLength n ≤ decimalLength n - 1 := hle
    omega

/-- Where the first digit of a decimal stands. -/
theorem decimal_mem_decade {k : ℕ} (hk : 0 < k) (e : ℤ) :
    (10 : ℚ) ^ (e + decimalLength k - 1) ≤ k * 10 ^ e ∧
      (k : ℚ) * 10 ^ e < 10 ^ (e + decimalLength k) := by
  obtain ⟨hlow, hhigh, hpos⟩ := decimalLength_spec hk
  have hlow' : (10 : ℚ) ^ (decimalLength k - 1) ≤ k := by exact_mod_cast hlow
  have hhigh' : (k : ℚ) < 10 ^ decimalLength k := by exact_mod_cast hhigh
  have hten : (10 : ℚ) ≠ 0 := by norm_num
  have hgrid : (0 : ℚ) < 10 ^ e := zpow_pos (by norm_num) e
  constructor
  · calc (10 : ℚ) ^ (e + decimalLength k - 1) = 10 ^ (decimalLength k - 1) * 10 ^ e := by
          rw [← zpow_natCast, ← zpow_add₀ hten]
          exact congrArg _ (by omega)
      _ ≤ k * 10 ^ e := mul_le_mul_of_nonneg_right hlow' hgrid.le
  · calc (k : ℚ) * 10 ^ e < 10 ^ decimalLength k * 10 ^ e := mul_lt_mul_of_pos_right hhigh' hgrid
      _ = 10 ^ (e + decimalLength k) := by
          rw [← zpow_natCast, ← zpow_add₀ hten]
          exact congrArg _ (by omega)

/-- **A decimal is read as the nearest number**, where that is finite. -/
theorem magnitudeOfDecimal_eq_iff (k : ℕ) (e : ℤ) (hm : m < infinityMagnitude) :
    magnitudeOfDecimal k e = m ↔ IsNearest (k * 10 ^ e) m := by
  have hof : ∀ m', IsNearest (k * 10 ^ e) m' → (m' = m ↔ IsNearest (k * 10 ^ e) m) :=
    fun m' h => ⟨fun h' => h' ▸ h, fun h' => h.unique h'⟩
  unfold magnitudeOfDecimal
  dsimp only
  split
  · next h =>
    -- zero, or less than half of the least number
    refine hof 0 ?_
    rcases Nat.eq_zero_or_pos k with rfl | hk
    · rw [Nat.cast_zero, zero_mul]
      exact isNearest_zero_iff.2 rfl
    · have hpoint := h.resolve_left (Nat.ne_of_gt hk)
      refine isNearest_zero_of_lt (lt_of_lt_of_le (decimal_mem_decade hk e).2 ?_)
      exact zpow_le_zpow_right₀ (by norm_num) (by omega)
  · next h =>
    rw [not_or] at h
    have hk : 0 < k := Nat.pos_of_ne_zero h.1
    split
    · next hfar =>
      -- beyond all finite numbers
      refine iff_of_false (Nat.ne_of_gt hm) fun hn => ?_
      refine absurd (hn.lt_ten_pow hm) (not_lt.2 (le_trans ?_ (decimal_mem_decade hk e).1))
      rw [← zpow_natCast]
      exact zpow_le_zpow_right₀ (by norm_num) (by omega)
    · split
      · next he =>
        -- in between the decimal is a ratio of whole numbers, and that is what is rounded
        obtain ⟨j, rfl⟩ := Int.eq_ofNat_of_zero_le he
        have hratio : ((k * 10 ^ j : ℕ) : ℚ) / (1 : ℕ) = k * 10 ^ (j : ℤ) := by
          rw [Nat.cast_one, div_one, zpow_natCast]
          push_cast
          rfl
        rw [← hratio, ← nearest_eq_iff Nat.one_pos hm]
        rfl
      · next he =>
        obtain ⟨j, rfl⟩ := Int.exists_eq_neg_ofNat (Int.le_of_lt (Int.not_le.1 he))
        have hratio : (k : ℚ) / (10 ^ j : ℕ) = k * 10 ^ (-(j : ℤ)) := by
          rw [zpow_neg, zpow_natCast, div_eq_mul_inv]
          push_cast
          rfl
        rw [← hratio, ← nearest_eq_iff (Nat.pow_pos (by decide)) hm, Int.neg_neg,
          Int.toNat_natCast]
        rfl

/-! ## Where the point stands -/

theorem overTen_eq (num : ℕ) {den : ℕ} (hden : 0 < den) (e : ℤ) :
    0 < (overTen num den e).2 ∧
      ((overTen num den e).1 : ℚ) / (overTen num den e).2 = num / den / 10 ^ e :=
  over_eq (by decide) num hden e rfl

/-- **The point of a positive ratio** stands behind its decade. -/
theorem pointOf_spec {num den : ℕ} (hnum : 0 < num) (hden : 0 < den) :
    (10 : ℚ) ^ (pointOf num den - 1) ≤ num / den ∧ (num : ℚ) / den < 10 ^ pointOf num den := by
  have hnumq : (0 : ℚ) < num := Nat.cast_pos.2 hnum
  have hdenq : (0 : ℚ) < den := Nat.cast_pos.2 hden
  have hten : (10 : ℚ) ≠ 0 := by norm_num
  unfold pointOf
  split
  · next h =>
    -- from one on the point stands behind the digits of the whole part
    obtain ⟨hlow, hhigh, hpos⟩ := decimalLength_spec (Nat.div_pos h hden)
    generalize hL : decimalLength (num / den) = L at *
    constructor
    · rw [le_div_iff₀ hdenq]
      have hle : 10 ^ (L - 1) * den ≤ num := (Nat.le_div_iff_mul_le hden).1 hlow
      have hcast : (10 : ℚ) ^ (L - 1) * den ≤ num := by exact_mod_cast hle
      rwa [show (L : ℤ) - 1 = ((L - 1 : ℕ) : ℤ) by omega, zpow_natCast]
    · rw [div_lt_iff₀ hdenq, zpow_natCast]
      have hlt : num < 10 ^ L * den := (Nat.div_lt_iff_lt_mul hden).1 hhigh
      exact_mod_cast hlt
  · next h =>
    -- the digits of what the other ratio is rounded up to, less one
    obtain ⟨n, hn⟩ : ∃ n, (num + den - 1) / num = n + 1 :=
      Nat.exists_eq_succ_of_ne_zero (Nat.ne_of_gt (Nat.div_pos (by omega) hnum))
    have habove : den ≤ num * (n + 1) := by
      have := Nat.lt_mul_div_succ (num + den - 1) hnum
      rw [hn, Nat.mul_add, Nat.mul_one] at this
      omega
    have hbelow : num * n < den := by
      have := Nat.mul_div_le (num + den - 1) num
      rw [hn, Nat.mul_add, Nat.mul_one] at this
      omega
    have hpos : 0 < n := by
      rcases Nat.eq_zero_or_pos n with rfl | hpos
      · omega
      · exact hpos
    obtain ⟨hlow, hhigh, hlength⟩ := decimalLength_spec hpos
    rw [hn, Nat.add_sub_cancel]
    generalize decimalLength n = L at *
    constructor
    · rw [show 1 - (L : ℤ) - 1 = -(L : ℤ) by omega, zpow_neg, zpow_natCast,
        inv_le_iff_one_le_mul₀ (by positivity), mul_comm_div, ← mul_div_assoc, one_le_div hdenq]
      have hle : den ≤ num * 10 ^ L :=
        Nat.le_trans habove (Nat.mul_le_mul_left _ hhigh)
      exact_mod_cast hle
    · rw [show 1 - (L : ℤ) = -((L - 1 : ℕ) : ℤ) by omega, zpow_neg, zpow_natCast,
        lt_inv_comm₀ (by positivity) (by positivity), inv_div, lt_div_iff₀ hnumq]
      have hlt : 10 ^ (L - 1) * num < den :=
        Nat.lt_of_le_of_lt (Nat.mul_comm num n ▸ Nat.mul_le_mul_right num hlow) hbelow
      exact_mod_cast hlt

end Binary64

end WindowQuery
