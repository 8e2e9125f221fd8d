import Mathlib.Algebra.Order.Floor.Semifield
import Mathlib.Data.Rat.Floor
import WindowQuery.Proofs.Binary64.Decimal
import WindowQuery.Proofs.Text.Written

/-!
# The shortest decimal of a number

The search looks at one grid of decimals after the other, each ten times as fine
as the last, and on each at the two neighbours of the number only. That is
enough, because what lies between a decimal that stands for the number and the
number stands for it too: if anything on the grid does, one of the neighbours
does (`not_reads_of_onGrid?_eq_none`), and the one that is taken is preferred to
all others (`onGrid?_eq_some`).

The grids begin at the decade of the number. A decimal with as many digits as a
grid is on that grid from this decade on; below it, the power of ten at which the
decade begins is on all grids and nearer (`exists_reads_of_hasDigits`). So the
first grid on which something is found has the shortest decimal
(`isShortest_of_onGrid?`), and the seventeenth has something, being finer than
the numbers are (`exists_reads_seventeen`).

Up to fifteen digits decimals are farther apart than the numbers, so that each
is the only one that stands for its number (`IsNearest.eq_of_hasDigits`).
-/

namespace WindowQuery

namespace Binary64

variable {m : ℕ} {q : ℚ}

/-! ## The grid of an exponent -/

/-- **A decimal stands for a number** if the number is nearest to it. -/
def Reads (m : ℕ) (e : ℤ) (k : ℕ) : Prop := IsNearest (k * 10 ^ e) m

/-- Of the two neighbours on the grid, what is found is one that stands for the number,
and the nearer one if both do. -/
theorem onGrid?_spec (e : ℤ) (hm : m < infinityMagnitude) :
    ∃ low : ℕ, low * 10 ^ e ≤ value m ∧ value m < (low + 1) * 10 ^ e ∧
      (onGrid? .away m e = none → ¬Reads m e low ∧ ¬Reads m e (low + 1)) ∧
      ∀ k, onGrid? .away m e = some k → Reads m e k ∧
        (k = low ∧ (Reads m e (low + 1) → 2 * value m < (low + (low + 1)) * 10 ^ e) ∨
          k = low + 1 ∧ (Reads m e low → (low + (low + 1)) * 10 ^ e ≤ 2 * value m)) := by
  have hgrid : (0 : ℚ) < 10 ^ e := zpow_pos (by norm_num) e
  obtain ⟨hden, hvalue⟩ := scaled_eq (significand m) (exponent m)
  obtain ⟨hd, hratio⟩ := overTen_eq (scaled (significand m) (exponent m)).1 hden e
  have hreads : ∀ k, (magnitudeOfDecimal k e == m) = true ↔ Reads m e k := fun k => by
    rw [beq_iff_eq, magnitudeOfDecimal_eq_iff k e hm, Reads]
  unfold onGrid?
  dsimp only
  generalize overTen (scaled (significand m) (exponent m)).1
    (scaled (significand m) (exponent m)).2 e = q at *
  obtain ⟨n, d⟩ := q
  dsimp only at *
  obtain ⟨rest, hn, hnonneg, hone, hless, -⟩ := exists_rest n hd
  rw [hratio, div_eq_iff hgrid.ne', hvalue, ← value] at hn
  have hupper : 1 ≤ 2 * rest ↔ ((n / d : ℕ) + ((n / d : ℕ) + 1)) * 10 ^ e ≤ 2 * value m := by
    rw [hn, ← mul_assoc, mul_le_mul_iff_left₀ hgrid]
    constructor <;> intro <;> linarith
  have hnearer : (decide (d < 2 * (n % d)) ||
      (2 * (n % d) == d && ((Tie.away == Tie.away) || n / d % 2 == 1))) = true ↔
        ((n / d : ℕ) + ((n / d : ℕ) + 1)) * 10 ^ e ≤ 2 * value m := by
    rw [← hupper, ← not_lt, ← hless, show (Tie.away == Tie.away) = true from rfl, Bool.true_or,
      Bool.and_true, Bool.or_eq_true, decide_eq_true_iff, beq_iff_eq]
    omega
  generalize n / d = low at *
  have hlow := hreads low
  have hhigh := hreads (low + 1)
  refine ⟨low, ?_, ?_, ?_⟩
  · rw [hn]
    exact mul_le_mul_of_nonneg_right (le_add_of_nonneg_right hnonneg) hgrid.le
  · rw [hn]
    exact mul_lt_mul_of_pos_right (by linarith) hgrid
  · generalize (magnitudeOfDecimal low e == m) = a at *
    generalize (magnitudeOfDecimal (low + 1) e == m) = b at *
    generalize (decide (d < 2 * (n % d)) ||
      (2 * (n % d) == d && ((Tie.away == Tie.away) || low % 2 == 1))) = c at *
    -- the four outcomes, two of them by which neighbour is nearer
    rw [← not_le, ← hnearer]
    cases a <;> cases b <;> cases c <;> simp [hlow.symm, hhigh.symm]

/-- A decimal that stands for the number has the neighbour on its side do so, too. -/
theorem Reads.below {e : ℤ} {k low : ℕ} (h : Reads m e k) (hk : k ≤ low)
    (hlow : low * 10 ^ e ≤ value m) : Reads m e low := by
  have hgrid : (0 : ℚ) ≤ 10 ^ e := zpow_nonneg (by norm_num) e
  exact h.between (isNearest_value m) (mul_le_mul_of_nonneg_right (Nat.cast_le.2 hk) hgrid) hlow

theorem Reads.above {e : ℤ} {k high : ℕ} (h : Reads m e k) (hk : high ≤ k)
    (hhigh : value m ≤ high * 10 ^ e) : Reads m e high := by
  have hgrid : (0 : ℚ) ≤ 10 ^ e := zpow_nonneg (by norm_num) e
  exact (isNearest_value m).between h hhigh (mul_le_mul_of_nonneg_right (Nat.cast_le.2 hk) hgrid)

/-- **Which of two decimals is taken**: the one nearer to the number, and of two that are
equally near the one farther from zero. -/
def Preferred (m : ℕ) (q q' : ℚ) : Prop :=
  |value m - q| < |value m - q'| ∨ (|value m - q| = |value m - q'| ∧ q' < q)

theorem Preferred.not_symm {q q' : ℚ} (h : Preferred m q q') : ¬Preferred m q' q := by
  rintro (hlt | ⟨heq, hlt⟩)
  · rcases h with h | ⟨h, -⟩
    · exact absurd h hlt.asymm
    · exact hlt.ne' h
  · rcases h with h | ⟨-, h⟩
    · exact h.ne' heq
    · exact absurd h hlt.asymm

/-- **Nothing is found on a grid** where no decimal stands for the number. -/
theorem not_reads_of_onGrid?_eq_none {e : ℤ} (hm : m < infinityMagnitude)
    (h : onGrid? .away m e = none) (k : ℕ) : ¬Reads m e k := by
  obtain ⟨low, hbelow, habove, hnone, -⟩ := onGrid?_spec e hm
  obtain ⟨hlow, hhigh⟩ := hnone h
  intro hk
  rcases Nat.lt_or_ge low k with hlt | hle
  · exact hhigh (hk.above hlt (by exact_mod_cast habove.le))
  · exact hlow (hk.below hle hbelow)

/-- **What is found on a grid** stands for the number and is preferred to all that do, and
it is one of the two neighbours. -/
theorem onGrid?_eq_some {e : ℤ} {k : ℕ} (hm : m < infinityMagnitude)
    (h : onGrid? .away m e = some k) :
    Reads m e k ∧ (∀ k', Reads m e k' → k' ≠ k → Preferred m (k * 10 ^ e) (k' * 10 ^ e)) ∧
      (k - 1) * 10 ^ e ≤ value m := by
  have hgrid : (0 : ℚ) < 10 ^ e := zpow_pos (by norm_num) e
  obtain ⟨low, hbelow, habove, -, hsome⟩ := onGrid?_spec e hm
  obtain ⟨hreads, hk⟩ := hsome k h
  have hcast : ∀ {a b : ℕ}, a ≤ b → (a : ℚ) * 10 ^ e ≤ b * 10 ^ e := fun hab =>
    mul_le_mul_of_nonneg_right (Nat.cast_le.2 hab) hgrid.le
  have hstrict : ∀ {a b : ℕ}, a < b → (a : ℚ) * 10 ^ e < b * 10 ^ e := fun hab =>
    mul_lt_mul_of_pos_right (Nat.cast_lt.2 hab) hgrid
  have hnext : ((low + 1 : ℕ) : ℚ) * 10 ^ e = (low + 1) * 10 ^ e := by push_cast; rfl
  -- a tie goes to the upper neighbour, so only there it has to be thought of
  rcases hk with ⟨rfl, hnearer⟩ | ⟨rfl, hnearer⟩
  · refine ⟨hreads, fun k' hk' hne => Or.inl ?_, by linarith⟩
    rw [abs_of_nonneg (sub_nonneg.2 hbelow)]
    rcases Nat.lt_or_gt_of_ne hne with hlt | hlt
    · have := hstrict hlt
      rw [abs_of_nonneg (by linarith)]
      linarith
    · have hnear := hnearer (hk'.above hlt (hnext ▸ habove.le))
      have := hcast (Nat.succ_le_of_lt hlt)
      rw [abs_of_nonpos (by linarith)]
      linarith
  · rw [← hnext] at habove
    refine ⟨hreads, fun k' hk' hne => ?_, by push_cast; linarith⟩
    unfold Preferred
    rw [abs_of_nonpos (sub_nonpos.2 habove.le)]
    rcases Nat.lt_or_gt_of_ne hne with hlt | hlt
    · have hnear := hnearer (hk'.below (Nat.le_of_lt_succ hlt) hbelow)
      have := hcast (Nat.le_of_lt_succ hlt)
      rw [abs_of_nonneg (by linarith)]
      rcases lt_or_eq_of_le (show -(value m - ((low + 1 : ℕ) : ℚ) * 10 ^ e)
          ≤ value m - k' * 10 ^ e by linarith) with h | h
      · exact Or.inl h
      · exact Or.inr ⟨h, hstrict hlt⟩
    · have := hstrict hlt
      rw [abs_of_nonpos (by linarith)]
      exact Or.inl (by linarith)

/-! ## Decimals of few digits -/

/-- **A decimal of so many digits** or fewer, zeros at either end not counted. -/
def HasDigits (n : ℕ) (q : ℚ) : Prop := ∃ (k : ℕ) (e : ℤ), k < 10 ^ n ∧ q = k * 10 ^ e

theorem HasDigits.mono {n n' : ℕ} (h : HasDigits n q) (hn : n ≤ n') : HasDigits n' q := by
  obtain ⟨k, e, hk, hq⟩ := h
  exact ⟨k, e, Nat.lt_of_lt_of_le hk (Nat.pow_le_pow_right (by decide) hn), hq⟩

theorem hasDigits_mul_iff {n : ℕ} (j : ℤ) : HasDigits n (q * 10 ^ j) ↔ HasDigits n q := by
  have hmul : ∀ {q : ℚ} (j : ℤ), HasDigits n q → HasDigits n (q * 10 ^ j) := by
    rintro q j ⟨k, e, hk, rfl⟩
    exact ⟨k, e + j, hk, by rw [zpow_add₀ (by norm_num), mul_assoc]⟩
  refine ⟨fun h => ?_, hmul j⟩
  have hback := hmul (-j) h
  rwa [mul_assoc, ← zpow_add₀ (by norm_num), add_neg_cancel, zpow_zero, mul_one] at hback

/-- Zeros may be written or counted for the exponent. -/
theorem mul_ten_zpow_add (k : ℕ) (e : ℤ) (j : ℕ) :
    (k : ℚ) * 10 ^ (e + j) = (k * 10 ^ j : ℕ) * 10 ^ e := by
  rw [zpow_add₀ (by norm_num), zpow_natCast]
  push_cast
  ring

theorem hasDigits_of_le {n k : ℕ} (hn : 0 < n) (hk : k ≤ 10 ^ n) (e : ℤ) :
    HasDigits n (k * 10 ^ e) := by
  rcases Nat.lt_or_eq_of_le hk with hlt | rfl
  · exact ⟨k, e, hlt, rfl⟩
  · refine ⟨1, e + n, Nat.one_lt_pow (Nat.ne_of_gt hn) (by decide), ?_⟩
    rw [mul_ten_zpow_add, Nat.one_mul]

/-- **From its decade on** a decimal of so many digits is on the grid of that many. -/
theorem HasDigits.exists_onGrid {n : ℕ} {p : ℤ} (h : HasDigits n q) (hq : 10 ^ (p - 1) ≤ q) :
    ∃ k : ℕ, q = k * 10 ^ (p - n) := by
  obtain ⟨k, e, hk, rfl⟩ := h
  have hten : (10 : ℚ) ≠ 0 := by norm_num
  have hlt : (10 : ℚ) ^ (p - 1) < 10 ^ (n + e) := by
    calc (10 : ℚ) ^ (p - 1) ≤ k * 10 ^ e := hq
      _ < 10 ^ n * 10 ^ e := by
          refine mul_lt_mul_of_pos_right ?_ (zpow_pos (by norm_num) e)
          exact_mod_cast hk
      _ = 10 ^ (n + e) := by rw [zpow_add₀ hten, zpow_natCast]
  have hle : p - n ≤ e := by
    have := (zpow_lt_zpow_iff_right₀ (by norm_num : (1 : ℚ) < 10)).1 hlt
    omega
  obtain ⟨j, hj⟩ := Int.le.dest hle
  exact ⟨k * 10 ^ j, by rw [← hj, mul_ten_zpow_add]⟩

/-- Two decimals of so many digits are on one grid, and one of them has no more digits
there. -/
theorem HasDigits.exists_grid {n : ℕ} {q' : ℚ} (h : HasDigits n q) (h' : HasDigits n q') :
    ∃ (a b : ℕ) (e : ℤ), q = a * 10 ^ e ∧ q' = b * 10 ^ e ∧ (a < 10 ^ n ∨ b < 10 ^ n) := by
  obtain ⟨k, e, hk, rfl⟩ := h
  obtain ⟨k', e', hk', rfl⟩ := h'
  rcases le_total e e' with hle | hle
  · obtain ⟨j, rfl⟩ := Int.le.dest hle
    exact ⟨k, k' * 10 ^ j, e, rfl, mul_ten_zpow_add k' e j, Or.inl hk⟩
  · obtain ⟨j, rfl⟩ := Int.le.dest hle
    exact ⟨k * 10 ^ j, k', e', mul_ten_zpow_add k e' j, rfl, Or.inr hk'⟩

/-- **Decimals of so many digits are apart** by more than the part of them that many digits
make out. -/
theorem HasDigits.lt_sub_mul {n : ℕ} {q' : ℚ} (h : HasDigits n q) (h' : HasDigits n q')
    (hlt : q < q') : q < (q' - q) * 10 ^ n := by
  obtain ⟨a, b, e, rfl, rfl, hdigits⟩ := h.exists_grid h'
  have hgrid : (0 : ℚ) < 10 ^ e := zpow_pos (by norm_num) e
  have hab : a < b := by exact_mod_cast lt_of_mul_lt_mul_right hlt hgrid.le
  have ha : (a : ℚ) < 10 ^ n := by
    have : a < 10 ^ n := hdigits.elim id fun hb => Nat.lt_trans hab hb
    exact_mod_cast this
  -- they are one step apart at least
  have hstep : (1 : ℚ) ≤ b - a := by
    have : (a : ℚ) + 1 ≤ b := by exact_mod_cast hab
    linarith
  calc (a : ℚ) * 10 ^ e < 10 ^ n * 10 ^ e := mul_lt_mul_of_pos_right ha hgrid
    _ ≤ 10 ^ n * ((b - a) * 10 ^ e) :=
        mul_le_mul_of_nonneg_left (le_mul_of_one_le_left hgrid.le hstep) (by positivity)
    _ = (b * 10 ^ e - a * 10 ^ e) * 10 ^ n := by ring

/-- **Fifteen digits are told apart**: where numbers have fifty-three bits, no two decimals of
fifteen digits stand for one of them. -/
theorem IsNearest.eq_of_hasDigits {q' : ℚ} (h : IsNearest q m) (h' : IsNearest q' m)
    (hm : 2 ^ 52 < m) (hq : HasDigits 15 q) (hq' : HasDigits 15 q') : q = q' := by
  have hapart : ∀ {a b : ℚ}, IsNearest a m → IsNearest b m → HasDigits 15 a → HasDigits 15 b →
      ¬a < b := by
    intro a b ha hb hda hdb hlt
    have hdigits := hda.lt_sub_mul hdb hlt
    have hbelow := (abs_le.1 (ha.abs_sub_le hm)).2
    have habove := (abs_le.1 (hb.abs_sub_le hm)).1
    linarith
  exact le_antisymm (not_lt.1 (hapart h' h hq' hq)) (not_lt.1 (hapart h h' hq hq'))

/-- **The shortest decimal of a number**: it stands for the number, no decimal of fewer
digits does, and it is preferred to all others of as many that do. -/
def IsShortest (m : ℕ) (q : ℚ) : Prop :=
  IsNearest q m ∧ ∃ n, HasDigits n q ∧
    (∀ q', IsNearest q' m → ∀ n' < n, ¬HasDigits n' q') ∧
    ∀ q', IsNearest q' m → HasDigits n q' → q' ≠ q → Preferred m q q'

/-- **There is one.** -/
theorem IsShortest.unique {q' : ℚ} (h : IsShortest m q) (h' : IsShortest m q') : q = q' := by
  obtain ⟨hq, n, hn, hleast, hpreferred⟩ := h
  obtain ⟨hq', n', hn', hleast', hpreferred'⟩ := h'
  obtain rfl : n = n' := by
    rcases Nat.lt_trichotomy n n' with hlt | heq | hlt
    · exact absurd hn (hleast' q hq n hlt)
    · exact heq
    · exact absurd hn' (hleast q' hq' n' hlt)
  by_contra hne
  exact (hpreferred q' hq' hn' (Ne.symm hne)).not_symm (hpreferred' q hq hn hne)

/-- **Up to fifteen digits it is any decimal** that stands for the number. -/
theorem IsShortest.eq_iff {q' : ℚ} (h : IsShortest m q) (hm : 2 ^ 52 < m)
    (hdigits : HasDigits 15 q') : q = q' ↔ IsNearest q' m := by
  refine ⟨fun heq => heq ▸ h.1, fun hq' => ?_⟩
  obtain ⟨hq, n, hn, hleast, -⟩ := h
  have hle : n ≤ 15 := Nat.le_of_not_lt fun hlt => hleast q' hq' 15 hlt hdigits
  exact hq.eq_of_hasDigits hq' hm (hn.mono hle) hdigits

/-! ## Seventeen digits suffice -/

/-- **Half a grid of seventeen digits is less than half the way to a neighbour.** -/
theorem exists_reads_seventeen {p : ℤ} (h0 : 0 < m) (hlow : 10 ^ (p - 1) ≤ value m) :
    ∃ k, Reads m (p - 17) k := by
  obtain ⟨l, rfl⟩ := Nat.exists_eq_succ_of_ne_zero (Nat.ne_of_gt h0)
  have hten : (10 : ℚ) ≠ 0 := by norm_num
  have hgrid : (0 : ℚ) < 10 ^ (p - 17) := zpow_pos (by norm_num) _
  have hfine : (10 : ℚ) ^ (p - 17) * 10 ^ 16 ≤ value (l + 1) := by
    calc (10 : ℚ) ^ (p - 17) * 10 ^ 16 = 10 ^ (p - 1) := by
          rw [← zpow_natCast, ← zpow_add₀ hten]
          exact congrArg _ (by omega)
      _ ≤ value (l + 1) := hlow
  have hpoint : 0 ≤ (value (l + 1) + (10 : ℚ) ^ (p - 17) / 2) / 10 ^ (p - 17) :=
    div_nonneg (by linarith [value_nonneg (l + 1)]) hgrid.le
  -- the nearest point of the grid
  have hfloor := (le_div_iff₀ hgrid).1 (Nat.floor_le hpoint)
  have hnext := (div_lt_iff₀ hgrid).1
    (Nat.lt_floor_add_one ((value (l + 1) + (10 : ℚ) ^ (p - 17) / 2) / 10 ^ (p - 17)))
  have hbelow := value_succ_le l
  have habove : ulp l ≤ ulp (l + 1) := ulp_mono (Nat.le_succ l)
  refine ⟨⌊(value (l + 1) + (10 : ℚ) ^ (p - 17) / 2) / 10 ^ (p - 17)⌋₊, isNearest_of_lt ?_ ?_⟩
  · intro l' hl'
    obtain rfl := Nat.succ.inj hl'
    rw [value_succ] at *
    linarith
  · rw [value_succ (l + 1)]
    rw [value_succ] at *
    linarith

/-! ## The search -/

theorem not_isNearest_of_hasDigits_zero (h0 : 0 < m) (h : HasDigits 0 q) : ¬IsNearest q m := by
  obtain ⟨k, e, hk, rfl⟩ := h
  obtain rfl : k = 0 := Nat.lt_one_iff.1 hk
  rw [Nat.cast_zero, zero_mul, isNearest_zero_iff]
  exact Nat.ne_of_gt h0

/-- **A decimal that stands for the number has one on the grid** of as many digits that does:
itself, or the power of ten that begins the decade, which is nearer. -/
theorem exists_reads_of_hasDigits {n : ℕ} {p : ℤ} (hp : 10 ^ (p - 1) ≤ value m) (hn : 0 < n)
    (hq : IsNearest q m) (h : HasDigits n q) :
    ∃ k : ℕ, Reads m (p - n) k ∧
      (q = k * 10 ^ (p - n) ∨ |value m - k * 10 ^ (p - n)| < |value m - q|) := by
  rcases le_or_gt (10 ^ (p - 1)) q with hle | hlt
  · obtain ⟨k, hk⟩ := h.exists_onGrid hle
    refine ⟨k, ?_, Or.inl hk⟩
    rwa [Reads, ← hk]
  · have hpower : ((10 ^ (n - 1) : ℕ) : ℚ) * 10 ^ (p - n) = 10 ^ (p - 1) := by
      push_cast
      rw [← zpow_natCast, ← zpow_add₀ (by norm_num)]
      exact congrArg _ (by omega)
    refine ⟨10 ^ (n - 1), ?_, Or.inr ?_⟩
    · rw [Reads, hpower]
      exact hq.between (isNearest_value m) hlt.le hp
    · rw [hpower, abs_of_nonneg (by linarith), abs_of_nonneg (by linarith)]
      linarith

/-- What is found on a grid has as many digits as the grid says. -/
theorem hasDigits_of_onGrid? {n k : ℕ} {p : ℤ} (hm : m < infinityMagnitude)
    (hhigh : value m < 10 ^ p) (hn : 0 < n) (hk : onGrid? .away m (p - n) = some k) :
    HasDigits n (k * 10 ^ (p - n)) := by
  have hgrid : (0 : ℚ) < 10 ^ (p - n) := zpow_pos (by norm_num) _
  have hlt : (k - 1) * (10 : ℚ) ^ (p - n) < 10 ^ n * 10 ^ (p - n) := by
    calc (k - 1) * (10 : ℚ) ^ (p - n) ≤ value m := (onGrid?_eq_some hm hk).2.2
      _ < 10 ^ p := hhigh
      _ = 10 ^ n * 10 ^ (p - n) := by
          rw [← zpow_natCast, ← zpow_add₀ (by norm_num)]
          exact congrArg _ (by omega)
  have hlt' : (k : ℚ) < 10 ^ n + 1 := by linarith [lt_of_mul_lt_mul_right hlt hgrid.le]
  have hbound : k < 10 ^ n + 1 := by exact_mod_cast hlt'
  exact hasDigits_of_le hn (Nat.le_of_lt_succ hbound) _

/-- **The first grid on which something is found** has the shortest decimal. -/
theorem isShortest_of_onGrid? {n k : ℕ} {p : ℤ} (h0 : 0 < m) (hm : m < infinityMagnitude)
    (hlow : 10 ^ (p - 1) ≤ value m) (hhigh : value m < 10 ^ p) (hn : 0 < n)
    (hk : onGrid? .away m (p - n) = some k)
    (hleast : ∀ n', 0 < n' → n' < n → onGrid? .away m (p - n') = none) :
    IsShortest m (k * 10 ^ (p - n)) := by
  obtain ⟨hreads, hpreferred, -⟩ := onGrid?_eq_some hm hk
  refine ⟨hreads, n, hasDigits_of_onGrid? hm hhigh hn hk,
    fun q' hq' n' hlt hdigits => ?_, fun q' hq' hdigits hne => ?_⟩
  · rcases Nat.eq_zero_or_pos n' with rfl | hpos
    · exact not_isNearest_of_hasDigits_zero h0 hdigits hq'
    · obtain ⟨k', hk', -⟩ := exists_reads_of_hasDigits hlow hpos hq' hdigits
      exact not_reads_of_onGrid?_eq_none hm (hleast n' hpos hlt) k' hk'
  · obtain ⟨k', hk', rfl | hnearer⟩ := exists_reads_of_hasDigits hlow hn hq' hdigits
    · exact hpreferred k' hk' fun h => hne (h ▸ rfl)
    · rcases eq_or_ne k' k with rfl | hne'
      · exact Or.inl hnearer
      · rcases hpreferred k' hk' hne' with hlt | ⟨heq, -⟩
        · exact Or.inl (hlt.trans hnearer)
        · exact Or.inl (heq ▸ hnearer)

/-- **The search ends** at the first grid on which something is found. -/
theorem exists_found {p : ℤ} (h0 : 0 < m) (hm : m < infinityMagnitude)
    (hlow : 10 ^ (p - 1) ≤ value m) :
    ∃ n k : ℕ,
      (List.range 17).findSome? (fun n =>
        let e := p - ((n + 1 : ℕ) : ℤ)
        (onGrid? .away m e).map (fun digits => (digits, e))) = some (k, p - n) ∧
      0 < n ∧ n ≤ 17 ∧ onGrid? .away m (p - n) = some k ∧
      ∀ n', 0 < n' → n' < n → onGrid? .away m (p - n') = none := by
  cases hfound : (List.range 17).findSome? (fun n =>
      let e := p - ((n + 1 : ℕ) : ℤ)
      (onGrid? .away m e).map (fun digits => (digits, e))) with
  | none =>
    rw [List.findSome?_eq_none_iff] at hfound
    have hlast := Option.map_eq_none_iff.1 (hfound 16 (List.mem_range.2 (by decide)))
    obtain ⟨k, hk⟩ := exists_reads_seventeen h0 hlow
    exact (not_reads_of_onGrid?_eq_none hm hlast k hk).elim
  | some found =>
    obtain ⟨before, n, after, hsplit, hn, hbefore⟩ := List.findSome?_eq_some_iff.1 hfound
    obtain ⟨k, hk, rfl⟩ := Option.map_eq_some_iff.1 hn
    -- the list counts up to where it stops
    have hlength := congrArg List.length hsplit
    rw [List.length_range, List.length_append, List.length_cons] at hlength
    have hat : (List.range 17)[before.length]? = some before.length :=
      List.getElem?_range (by omega)
    rw [hsplit, List.getElem?_append_right le_rfl, Nat.sub_self, List.getElem?_cons_zero] at hat
    have hbound := Option.some.inj hat
    refine ⟨n + 1, k, rfl, Nat.succ_pos n, by omega, hk, fun n' hpos hlt => ?_⟩
    obtain ⟨j, rfl⟩ := Nat.exists_eq_succ_of_ne_zero (Nat.ne_of_gt hpos)
    have hj : (List.range 17)[j]? = some j := List.getElem?_range (by omega)
    rw [hsplit, List.getElem?_append_left (by omega)] at hj
    exact Option.map_eq_none_iff.1 (hbefore j (List.mem_of_getElem? hj))

/-- **The number that a written decimal stands for.** -/
def Digits.value (d : Digits) : ℚ :=
  Numeral.value d.digits * 10 ^ (d.point - d.digits.length)

/-- Zeros at the end of the digits of a decimal count for its exponent. -/
theorem value_trimmed {k : ℕ} (hk : 0 < k) (e : ℤ) :
    let kept := ((Numeral.digits k).reverse.dropWhile (· == '0')).reverse
    Digits.value ⟨kept, e + (Numeral.digits k).length⟩ = k * 10 ^ e ∧ kept ≠ [] := by
  obtain ⟨zeros, hzeros⟩ := Numeral.exists_trailingZeros (Numeral.digits k)
  dsimp only
  generalize ((Numeral.digits k).reverse.dropWhile (· == '0')).reverse = kept at *
  have hlength := congrArg List.length hzeros
  have hvalue := congrArg Numeral.value hzeros
  rw [List.length_append, List.length_replicate] at hlength
  rw [Numeral.value_digits, Numeral.value_append, Numeral.value_replicate_zero,
    List.length_replicate, Nat.add_zero] at hvalue
  constructor
  · have hexponent : e + ((Numeral.digits k).length : ℤ) - kept.length = e + zeros := by omega
    rw [Digits.value]
    dsimp only
    rw [hexponent, mul_ten_zpow_add, ← hvalue]
  · rintro rfl
    exact Nat.ne_of_gt hk (hvalue.trans (Nat.zero_mul _))

/-- **The shortest decimal is found**; it has no more than seventeen digits, and one at
least. -/
theorem isShortest_shortest (h0 : 0 < m) (hm : m < infinityMagnitude) :
    IsShortest m (shortest .away m).value ∧ HasDigits 17 (shortest .away m).value ∧
      (shortest .away m).digits ≠ [] := by
  obtain ⟨hden, hratio⟩ := scaled_eq (significand m) (exponent m)
  have hnum : 0 < (scaled (significand m) (exponent m)).1 :=
    pos_of_div_pos (lt_of_lt_of_eq (value_pos h0) hratio.symm)
  obtain ⟨hlow, hhigh⟩ := pointOf_spec hnum hden
  rw [hratio] at hlow hhigh
  unfold shortest
  rw [if_neg (Nat.ne_of_gt h0)]
  dsimp only
  generalize pointOf (scaled (significand m) (exponent m)).1
    (scaled (significand m) (exponent m)).2 = p at *
  obtain ⟨n, k, hfound, hn, hn', hk, hleast⟩ := exists_found h0 hm hlow
  rw [hfound]
  have hshortest := isShortest_of_onGrid? h0 hm hlow hhigh hn hk hleast
  have hpos : 0 < k := by
    by_contra hzero
    obtain rfl := Nat.eq_zero_of_not_pos hzero
    exact not_isNearest_of_hasDigits_zero h0 ⟨0, _, by norm_num, rfl⟩ hshortest.1
  obtain ⟨hvalue, hne⟩ := value_trimmed hpos (p - n)
  have hdigits := (hasDigits_of_onGrid? hm hhigh hn hk).mono hn'
  exact ⟨hvalue ▸ hshortest, hvalue ▸ hdigits, hne⟩

end Binary64

end WindowQuery
