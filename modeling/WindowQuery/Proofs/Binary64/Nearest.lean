import WindowQuery.Proofs.Binary64.Value

/-!
# The number nearest to a ratio

`IsNearest r m` says that `m` stands for a number that is nearer to `r` than all
others, or as near as another one and even. What decides it is the two points in
the middle between the number and its neighbours (`isNearest_iff`). So the
nearest number is one only, grows with `r` (`IsNearest.le`), is the number
itself for a number, and is the same for all that lies between two ratios with
the same nearest number.

Rounding finds it (`nearest_eq_iff`). A quotient is rounded at the exponent at which
it has fifty-three bits, and then the neighbours are those on the grid of that
exponent, but for the number below a power of two. This one is closer to the power
than the grid says; but a quotient that is rounded to the power is not below it, and
so no closer to the other.
-/

namespace WindowQuery

namespace Binary64

variable {r r' : ℚ} {m m' : ℕ}

/-- **A number is nearest to a ratio**: it is nearer than all others, or even and
as near. -/
def IsNearest (r : ℚ) (m : ℕ) : Prop :=
  ∀ m', m' ≠ m → |r - value m| < |r - value m'| ∨ (|r - value m| = |r - value m'| ∧ Even m)

/-! ## The middle between two numbers -/

/-- Of two points the greater one is nearer from the middle on. -/
theorem abs_sub_lt_iff_right {a b : ℚ} (h : a < b) : |r - b| < |r - a| ↔ a + b < 2 * r := by
  rcases abs_cases (r - b) with ⟨hb, _⟩ | ⟨hb, _⟩ <;>
    rcases abs_cases (r - a) with ⟨ha, _⟩ | ⟨ha, _⟩ <;> rw [ha, hb] <;> constructor <;> intro <;>
      linarith

theorem abs_sub_lt_iff_left {a b : ℚ} (h : a < b) : |r - a| < |r - b| ↔ 2 * r < a + b := by
  -- seen from the other side
  have hmirror := abs_sub_lt_iff_right (r := -r) (neg_lt_neg h)
  rw [neg_sub_neg, neg_sub_neg, abs_sub_comm a, abs_sub_comm b] at hmirror
  rw [hmirror]
  constructor <;> intro <;> linarith

theorem abs_sub_eq_iff {a b : ℚ} (h : a < b) : |r - a| = |r - b| ↔ a + b = 2 * r := by
  have hright := abs_sub_lt_iff_right (r := r) h
  have hleft := abs_sub_lt_iff_left (r := r) h
  constructor
  · intro heq
    rw [heq, lt_self_iff_false, false_iff, not_lt] at hleft hright
    exact le_antisymm hleft hright
  · intro heq
    rw [heq, lt_self_iff_false, iff_false, not_lt] at hleft hright
    exact le_antisymm hright hleft

/-- **A number is nearest between the two middles**, the ends included if it is even. -/
theorem isNearest_iff :
    IsNearest r m ↔
      (∀ l, l + 1 = m → value l + value m < 2 * r ∨ (value l + value m = 2 * r ∧ Even m)) ∧
        (2 * r < value m + value (m + 1) ∨ (value m + value (m + 1) = 2 * r ∧ Even m)) := by
  constructor
  · intro h
    refine ⟨?_, ?_⟩
    · rintro l rfl
      have hlt : value l < value (l + 1) := value_strictMono (Nat.lt_succ_self l)
      rw [← abs_sub_lt_iff_right hlt, ← abs_sub_eq_iff hlt, eq_comm (a := |r - value l|)]
      exact h l (Nat.ne_of_lt (Nat.lt_succ_self l))
    · have hlt : value m < value (m + 1) := value_strictMono (Nat.lt_succ_self m)
      rw [← abs_sub_lt_iff_left hlt, ← abs_sub_eq_iff hlt]
      exact h (m + 1) (Nat.succ_ne_self m)
  · rintro ⟨hbelow, habove⟩ m' hne
    rcases Nat.lt_or_gt_of_ne hne with hlt | hlt
    · -- a number below is not above the neighbour below
      obtain ⟨l, rfl⟩ := Nat.exists_eq_succ_of_ne_zero (Nat.ne_of_gt (Nat.zero_lt_of_lt hlt))
      have hle : value m' ≤ value l := value_strictMono.monotone (Nat.le_of_lt_succ hlt)
      have hvalue : value m' < value (l + 1) := value_strictMono hlt
      rw [abs_sub_lt_iff_right hvalue, eq_comm, abs_sub_eq_iff hvalue]
      rcases hbelow l rfl with hstrict | ⟨htie, heven⟩
      · exact Or.inl (by linarith)
      · rcases hle.lt_or_eq with hlt' | heq
        · exact Or.inl (by linarith)
        · exact Or.inr ⟨heq ▸ htie, heven⟩
    · have hle : value (m + 1) ≤ value m' := value_strictMono.monotone hlt
      have hvalue : value m < value m' := value_strictMono hlt
      rw [abs_sub_lt_iff_left hvalue, abs_sub_eq_iff hvalue]
      rcases habove with hstrict | ⟨htie, heven⟩
      · exact Or.inl (by linarith)
      · rcases hle.lt_or_eq with hlt' | heq
        · exact Or.inl (by linarith)
        · exact Or.inr ⟨heq ▸ htie, heven⟩

namespace IsNearest

/-- The middle with the neighbour above is not passed. -/
theorem two_mul_le (h : IsNearest r m) : 2 * r ≤ value m + value (m + 1) := by
  rcases (isNearest_iff.1 h).2 with hlt | ⟨heq, -⟩
  · exact hlt.le
  · exact heq.ge

/-- The middle with the neighbour below is. -/
theorem le_two_mul {l : ℕ} (h : IsNearest r (l + 1)) : value l + value (l + 1) ≤ 2 * r := by
  rcases (isNearest_iff.1 h).1 l rfl with hlt | ⟨heq, -⟩
  · exact hlt.le
  · exact heq.le

/-- **The nearest number grows with the ratio.** -/
theorem le (h : IsNearest r m) (h' : IsNearest r' m') (hr : r ≤ r') : m ≤ m' := by
  by_contra hlt
  obtain ⟨l, rfl⟩ := Nat.exists_eq_succ_of_ne_zero
    (Nat.ne_of_gt (Nat.zero_lt_of_lt (Nat.lt_of_not_le hlt)))
  have hle : m' ≤ l := Nat.le_of_lt_succ (Nat.lt_of_not_le hlt)
  have hvalue : value m' ≤ value l := value_strictMono.monotone hle
  have hsucc : value (m' + 1) ≤ value (l + 1) := value_strictMono.monotone (Nat.succ_le_succ hle)
  have hbelow := h.le_two_mul
  have habove := h'.two_mul_le
  -- both ratios are the middle between two neighbours, and both of these would be even
  have heq : m' = l := value_strictMono.injective (by linarith)
  subst heq
  rcases (isNearest_iff.1 h).1 m' rfl with hstrict | ⟨-, heven⟩
  · linarith
  rcases (isNearest_iff.1 h').2 with hstrict | ⟨-, heven'⟩
  · linarith
  · exact Nat.even_add_one.1 heven heven'

/-- **There is one nearest number.** -/
theorem unique (h : IsNearest r m) (h' : IsNearest r m') : m = m' :=
  Nat.le_antisymm (h.le h' le_rfl) (h'.le h le_rfl)

/-- **Between two ratios with one nearest number** it is that one, too. -/
theorem between {a b : ℚ} (ha : IsNearest a m) (hb : IsNearest b m) (har : a ≤ r) (hrb : r ≤ b) :
    IsNearest r m := by
  rw [isNearest_iff] at ha hb ⊢
  refine ⟨fun l hl => ?_, ?_⟩
  · rcases ha.1 l hl with hlt | ⟨heq, heven⟩
    · exact Or.inl (by linarith)
    · rcases har.lt_or_eq with hlt | rfl
      · exact Or.inl (by linarith)
      · exact Or.inr ⟨heq, heven⟩
  · rcases hb.2 with hlt | ⟨heq, heven⟩
    · exact Or.inl (by linarith)
    · rcases hrb.lt_or_eq with hlt | rfl
      · exact Or.inl (by linarith)
      · exact Or.inr ⟨heq, heven⟩

end IsNearest

/-- **A number is nearest to itself.** -/
theorem isNearest_value (m : ℕ) : IsNearest (value m) m := by
  intro m' hne
  have hvalue : value m ≠ value m' := fun h => hne (value_strictMono.injective h).symm
  rw [sub_self, abs_zero]
  exact Or.inl (abs_pos.2 (sub_ne_zero.2 hvalue))

theorem isNearest_zero_iff : IsNearest 0 m ↔ m = 0 := by
  have hzero : IsNearest 0 0 := by
    rw [← value_zero]
    exact isNearest_value 0
  exact ⟨fun h => h.unique hzero, fun h => h ▸ hzero⟩

/-- Strictly between them it may be odd. -/
theorem isNearest_of_lt (hbelow : ∀ l, l + 1 = m → value l + value m < 2 * r)
    (habove : 2 * r < value m + value (m + 1)) : IsNearest r m :=
  isNearest_iff.2 ⟨fun l hl => Or.inl (hbelow l hl), Or.inl habove⟩

/-- **Rounding changes a number by at most the `2 ^ 53`rd part of it**, where numbers
have fifty-three bits. -/
theorem IsNearest.abs_sub_le (h : IsNearest r m) (hm : 2 ^ 52 < m) :
    |value m - r| ≤ r / 2 ^ 53 := by
  obtain ⟨l, rfl⟩ := Nat.exists_eq_succ_of_ne_zero (Nat.ne_of_gt (Nat.zero_lt_of_lt hm))
  have hbelow := h.le_two_mul
  have habove := h.two_mul_le
  rw [value_succ (l + 1)] at habove
  rw [value_succ] at hbelow habove ⊢
  have hl := ulp_le_value (Nat.le_of_lt_succ hm)
  have hl' := ulp_le_value hm.le
  rw [value_succ] at hl'
  rw [abs_le]
  constructor <;> linarith

/-! ## Rounding a quotient -/

/-- A quotient and what is left of it, compared with a half. -/
theorem exists_rest (n : ℕ) {d : ℕ} (hd : 0 < d) :
    ∃ rest : ℚ, (n : ℚ) / d = (n / d : ℕ) + rest ∧ 0 ≤ rest ∧ rest < 1 ∧
      (2 * (n % d) < d ↔ 2 * rest < 1) ∧ (d < 2 * (n % d) ↔ 1 < 2 * rest) := by
  have hpos : (0 : ℚ) < d := Nat.cast_pos.2 hd
  refine ⟨(n % d : ℕ) / d, ?_, by positivity, ?_, ?_, ?_⟩
  · rw [div_eq_iff hpos.ne', add_mul, div_mul_cancel₀ _ hpos.ne']
    exact_mod_cast (Nat.div_add_mod' n d).symm
  · rw [div_lt_one hpos]
    exact_mod_cast Nat.mod_lt n hd
  · rw [← mul_div_assoc, div_lt_one hpos]
    exact_mod_cast Iff.rfl
  · rw [← mul_div_assoc, one_lt_div hpos]
    exact_mod_cast Iff.rfl

/-- **A whole number nearest to a ratio**: at most a half away, and even where it is
just that. -/
def IsRounded (q : ℚ) (k : ℕ) : Prop :=
  (2 * q < 2 * k + 1 ∨ (2 * q = 2 * k + 1 ∧ Even k)) ∧
    (2 * k < 2 * q + 1 ∨ (2 * k = 2 * q + 1 ∧ Even k))

/-- **A quotient is rounded to the nearest whole number**, and to the even one
where it lies in the middle: twice the rest is compared with the divisor. -/
theorem isRounded_roundQuotient (n : ℕ) {d : ℕ} (hd : 0 < d) :
    IsRounded (n / d) (roundQuotient n d) := by
  obtain ⟨rest, hn, hnonneg, hone, hless, hmore⟩ := exists_rest n hd
  unfold IsRounded roundQuotient
  dsimp only
  rw [hn]
  generalize n / d = k
  split
  · next h =>
    rw [hless] at h
    exact ⟨Or.inl (by linarith), Or.inl (by linarith)⟩
  · next hnot =>
    rw [hless, not_lt] at hnot
    split
    · next h =>
      rw [hmore] at h
      push_cast
      exact ⟨Or.inl (by linarith), Or.inl (by linarith)⟩
    · next hnot' =>
      rw [hmore, not_lt] at hnot'
      -- a tie: the even one of the two
      rcases Nat.even_or_odd k with heven | hodd
      · have hround : k + k % 2 = k := by rw [Nat.even_iff.1 heven, Nat.add_zero]
        rw [hround]
        exact ⟨Or.inr ⟨by linarith, heven⟩, Or.inl (by linarith)⟩
      · rw [Nat.odd_iff.1 hodd]
        push_cast
        exact ⟨Or.inl (by linarith), Or.inr ⟨by linarith, hodd.add_one⟩⟩

theorem overPower_eq (num : ℕ) {den : ℕ} (hden : 0 < den) (e : ℤ) :
    0 < (overPower num den e).2 ∧
      ((overPower num den e).1 : ℚ) / (overPower num den e).2 = num / den / 2 ^ e :=
  over_eq Nat.two_pos num hden e rfl

theorem two_pow_log2 {n : ℕ} (h : 0 < n) : (2 : ℚ) ^ n.log2 ≤ n ∧ (n : ℚ) < 2 ^ (n.log2 + 1) := by
  have hle : 2 ^ n.log2 ≤ n := Nat.log2_self_le (Nat.ne_of_gt h)
  have hlt : n < 2 ^ (n.log2 + 1) := Nat.lt_log2_self
  exact ⟨by exact_mod_cast hle, by exact_mod_cast hlt⟩

/-- The lengths of its two numbers leave one binade open for a ratio. -/
theorem div_mem_log2 {num den : ℕ} (hnum : 0 < num) (hden : 0 < den) {e : ℤ}
    (he : (num.log2 : ℤ) - den.log2 = e) :
    (2 : ℚ) ^ (e - 1) ≤ num / den ∧ (num : ℚ) / den < 2 ^ (e + 1) := by
  have hdenq : (0 : ℚ) < den := Nat.cast_pos.2 hden
  obtain ⟨hnum₁, hnum₂⟩ := two_pow_log2 hnum
  obtain ⟨hden₁, hden₂⟩ := two_pow_log2 hden
  rw [le_div_iff₀ hdenq, div_lt_iff₀ hdenq]
  constructor
  · calc (2 : ℚ) ^ (e - 1) * den
        ≤ 2 ^ (e - 1) * 2 ^ (den.log2 + 1) :=
          mul_le_mul_of_nonneg_left hden₂.le (zpow_nonneg two_pos.le _)
      _ = 2 ^ num.log2 := by
          rw [← zpow_natCast, ← zpow_natCast, ← zpow_add₀ two_ne_zero]
          exact congrArg _ (by omega)
      _ ≤ num := hnum₁
  · calc (num : ℚ) < 2 ^ (num.log2 + 1) := hnum₂
      _ = 2 ^ (e + 1) * 2 ^ den.log2 := by
          rw [← zpow_natCast, ← zpow_natCast, ← zpow_add₀ two_ne_zero]
          exact congrArg _ (by omega)
      _ ≤ 2 ^ (e + 1) * den :=
          mul_le_mul_of_nonneg_left hden₁ (zpow_nonneg two_pos.le _)

/-- **The binade of a ratio**: there it has at most fifty-three bits, and no fewer
unless the exponent is the least. -/
theorem exponentOf_spec {num den : ℕ} (hnum : 0 < num) (hden : 0 < den) :
    -1074 ≤ exponentOf num den ∧ (num : ℚ) / den < 2 ^ (exponentOf num den + 53) ∧
      (exponentOf num den = -1074 ∨ 2 ^ (exponentOf num den + 52) ≤ (num : ℚ) / den) := by
  generalize hguess : ((num.log2 : ℤ) - den.log2 - 52) = guess
  obtain ⟨hlow, hhigh⟩ := div_mem_log2 hnum hden (e := guess + 52) (by omega)
  obtain ⟨hd, hratio⟩ := overPower_eq num hden guess
  have hless : (overPower num den guess).1 < (overPower num den guess).2 * Nat.pow 2 52 ↔
      (num : ℚ) / den < 2 ^ (guess + 52) := by
    have hdq : (0 : ℚ) < (overPower num den guess).2 := by exact_mod_cast hd
    rw [zpow_add₀ two_ne_zero, ← div_lt_iff₀' (zpow_pos two_pos _), ← hratio, div_lt_iff₀' hdq]
    exact_mod_cast Iff.rfl
  -- the lengths leave two binades open, and one comparison decides between them
  obtain ⟨e, he, hle, hlt⟩ : ∃ e, exponentOf num den = max (-1074) e ∧
      (2 : ℚ) ^ (e + 52) ≤ num / den ∧ (num : ℚ) / den < 2 ^ (e + 53) := by
    unfold exponentOf
    dsimp only
    rw [hguess]
    by_cases h : (num : ℚ) / den < 2 ^ (guess + 52)
    · rw [if_pos (hless.2 h)]
      refine ⟨guess - 1, rfl, ?_, ?_⟩
      · rwa [show guess - 1 + 52 = guess + 52 - 1 by omega]
      · rwa [show guess - 1 + 53 = guess + 52 by omega]
    · rw [if_neg fun hn => h (hless.1 hn)]
      exact ⟨guess, rfl, not_lt.1 h, by rwa [show guess + 53 = guess + 52 + 1 by omega]⟩
  rw [he]
  refine ⟨le_max_left _ _, lt_of_lt_of_le hlt (zpow_le_zpow_right₀ one_le_two (by omega)), ?_⟩
  rcases le_total e (-1074) with hmax | hmax
  · exact Or.inl (max_eq_left hmax)
  · exact Or.inr (by rwa [max_eq_right hmax])

/-- **Rounding at an exponent**: where a ratio has fifty-three bits, or the exponent is
the least, the nearest number has the rounded ratio as its significand. -/
theorem isNearest_of_isRounded {q : ℚ} {e k : ℕ} (hlt : q < 2 ^ 53) (h : e = 0 ∨ 2 ^ 52 ≤ q)
    (hround : IsRounded q k) : IsNearest (q * 2 ^ ((e : ℤ) - 1074)) (e * 2 ^ 52 + k) := by
  obtain ⟨habove, hbelow⟩ := hround
  have hk : k ≤ 2 ^ 53 := by
    have : (k : ℚ) < 2 ^ 53 + 1 := by rcases hbelow with h | ⟨h, -⟩ <;> linarith
    have : k < 2 ^ 53 + 1 := by exact_mod_cast this
    omega
  have hbits : e = 0 ∨ 2 ^ 52 ≤ k := h.imp_right fun h => by
    have : (2 ^ 52 : ℚ) < k + 1 := by rcases habove with h' | ⟨h', -⟩ <;> linarith
    have : 2 ^ 52 < k + 1 := by exact_mod_cast this
    omega
  have heven : Even k → Even (e * 2 ^ 52 + k) := fun hk =>
    Even.add (Even.mul_left (by decide) e) hk
  have hulp : 2 ^ ((e : ℤ) - 1074) ≤ ulp (e * 2 ^ 52 + k) := le_ulp_binade hbits
  have hpos : (0 : ℚ) < 2 ^ ((e : ℤ) - 1074) := zpow_pos two_pos _
  -- what rounding says of the quotient is, times the power of two, what is asked of the middles
  rw [isNearest_iff, value_succ, value_binade hk hbits]
  constructor
  · intro l hl
    by_cases hfirst : e ≠ 0 ∧ k = 2 ^ 52
    · -- the numbers below are closer together, but the ratio is not below
      have hlt : value l < value (e * 2 ^ 52 + k) := value_strictMono (by omega)
      rw [value_binade hk hbits] at hlt
      have hle : (k : ℚ) ≤ q := by
        rw [hfirst.2]
        exact_mod_cast h.resolve_left hfirst.1
      have := mul_le_mul_of_nonneg_right hle hpos.le
      exact Or.inl (by linarith)
    · obtain ⟨k, rfl⟩ := Nat.exists_eq_succ_of_ne_zero (show k ≠ 0 by omega)
      rw [show l = e * 2 ^ 52 + k by omega, value_binade (by omega) (by omega)]
      push_cast at hbelow ⊢
      rcases hbelow with hlt | ⟨heq, hk⟩
      · have := mul_lt_mul_of_pos_right hlt hpos
        exact Or.inl (by linarith)
      · have := congrArg (· * (2 : ℚ) ^ ((e : ℤ) - 1074)) heq
        exact Or.inr ⟨by linarith, heven hk⟩
  · rcases habove with hlt | ⟨heq, hk⟩
    · have := mul_lt_mul_of_pos_right hlt hpos
      exact Or.inl (by linarith)
    · have := congrArg (· * (2 : ℚ) ^ ((e : ℤ) - 1074)) heq
      rcases hulp.lt_or_eq with hlt | heq'
      · exact Or.inl (by linarith)
      · exact Or.inr ⟨by linarith, heven hk⟩

/-- The magnitude that rounding gives, part by part. -/
theorem nearest_of_pos {num den n d : ℕ} {e : ℤ} (hnum : 0 < num) (he : exponentOf num den = e)
    (hq : overPower num den e = (n, d)) :
    nearest num den = min infinityMagnitude ((e + 1074).toNat * 2 ^ 52 + roundQuotient n d) := by
  unfold nearest
  -- as a numeral it would be compared by counting
  generalize infinityMagnitude = top
  rw [if_neg (Nat.ne_of_gt hnum), he]
  dsimp only
  rw [hq]
  rfl

/-- **Rounding finds the nearest number**, or infinity if that is too large. -/
theorem exists_nearest (num : ℕ) {den : ℕ} (hden : 0 < den) :
    ∃ m, IsNearest (num / den) m ∧ nearest num den = min infinityMagnitude m := by
  rcases Nat.eq_zero_or_pos num with rfl | hnum
  · refine ⟨0, ?_, by rw [nearest, if_pos rfl, Nat.min_zero]⟩
    rw [Nat.cast_zero, zero_div]
    exact isNearest_zero_iff.2 rfl
  obtain ⟨hleast, hlt, hpower⟩ := exponentOf_spec hnum hden
  obtain ⟨e, he⟩ : ∃ e : ℕ, exponentOf num den = e - 1074 :=
    ⟨(exponentOf num den + 1074).toNat, by omega⟩
  have hpos : (0 : ℚ) < 2 ^ ((e : ℤ) - 1074) := zpow_pos two_pos _
  obtain ⟨hd, hratio⟩ := overPower_eq num hden (e - 1074)
  cases hq : overPower num den (e - 1074) with
  | mk n d =>
    rw [hq, eq_div_iff hpos.ne'] at hratio
    rw [hq] at hd
    rw [he, add_comm, zpow_add₀ two_ne_zero, ← hratio, mul_lt_mul_iff_left₀ hpos] at hlt
    rw [he, add_comm _ (52 : ℤ), zpow_add₀ two_ne_zero, ← hratio, mul_le_mul_iff_left₀ hpos]
      at hpower
    refine ⟨e * 2 ^ 52 + roundQuotient n d, ?_, ?_⟩
    · rw [← hratio]
      exact isNearest_of_isRounded hlt (hpower.imp_left fun h => by omega)
        (isRounded_roundQuotient n hd)
    · rw [nearest_of_pos hnum he hq, show ((e : ℤ) - 1074 + 1074).toNat = e by omega]

/-- **Rounding to a finite number**: it is the nearest one. -/
theorem nearest_eq_iff {num den : ℕ} (hden : 0 < den) (hm : m < infinityMagnitude) :
    nearest num den = m ↔ IsNearest (num / den) m := by
  obtain ⟨m', hm', hnearest⟩ := exists_nearest num hden
  rw [hnearest]
  constructor
  · intro h
    obtain rfl : m' = m := by omega
    exact hm'
  · intro h
    obtain rfl := hm'.unique h
    exact min_eq_right hm.le

end Binary64

end WindowQuery
